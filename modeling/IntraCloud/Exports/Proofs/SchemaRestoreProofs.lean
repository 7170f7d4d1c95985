import IntraCloud.Databases.Proofs.DistinctProofs
import IntraCloud.Exports.Proofs.RowOrderProofs
import IntraCloud.Exports.SchemaRestore

/-!
# What a restore makes of the schema in a package

Every call of the loop over the tables goes through, whatever the catalog is that was exported, and the rows it
inserts correspond to the exported ones place by place. The loop over the foreign keys finds its rows by name.
-/

namespace Exports

open Audit Databases Organizations Permissions Relational Transition

/-! ## Calls -/

/-- The actor has the permissions of the services of the restore, as an administrator of the organization. -/
structure MayBuild (s : State) (actor organization : Uuid) : Prop where
  create : hasPermission s.tables s.now actor "database.create" organization none = true
  manage : hasPermission s.tables s.now actor "database.schema.manage" organization none = true

/-- What a call leaves that went through. -/
structure Called (s s' : State) (plan : Plan) : Prop where
  exec : s.tenant.exec plan.change.ddl = some s'.tenant
  write : plan.change.write s.catalog = some s'.catalog
  next : s'.nextUuid = s.nextUuid + 2
  now : s'.now = s.now
  tables : ∃ audit, s'.tables = { s.tables with audit := audit }

theorem callService_eq (actor : Uuid) {s : State} {svc : Service} {plan : Plan} {ten : Tenant} {cat : Catalog}
    (hpermitted : hasPermission s.tables s.now actor svc.permission svc.organization none = true)
    (hplan : svc.plan = .ok plan) (hexec : s.tenant.exec plan.change.ddl = some ten)
    (hwrite : plan.change.write s.catalog = some cat) (hfits : (svc.done actor "").fits = true) :
    ∃ s', callService actor s svc = .ok s' ∧ Called s s' plan ∧ s'.tenant = ten ∧ s'.catalog = cat := by
  have happly : applyChange { s with nextUuid := s.nextUuid + 2 } none plan.change =
      ({ s with nextUuid := s.nextUuid + 2, tenant := ten, catalog := cat }, .ok ()) := by
    simp [applyChange, executeTenantDdl, hexec, writeCatalog, hwrite]
  refine ⟨{ s with
    nextUuid := s.nextUuid + 2, tenant := ten, catalog := cat,
    tables := { s.tables with audit := s.tables.audit ++ [svc.done actor ""] } }, ?_, ?_, rfl, rfl⟩
  · unfold callService Service.call
    simp only [hpermitted, Bool.not_true, Bool.false_eq_true, if_false, hplan, happly, State.record,
      record_of_fits hfits, Option.map_some]
  · exact ⟨hexec, hwrite, rfl, rfl, _, rfl⟩

theorem called_of_ok {actor : Uuid} {s s' : State} {svc : Service} (h : callService actor s svc = .ok s') :
    ∃ plan, svc.plan = .ok plan ∧ Called s s' plan := by
  unfold callService Service.call at h
  by_cases hpermitted : hasPermission s.tables s.now actor svc.permission svc.organization none = true
  · simp only [hpermitted, Bool.not_true, Bool.false_eq_true, if_false] at h
    cases hplan : svc.plan with
    | error message => simp [hplan] at h
    | ok plan =>
      rw [hplan] at h
      refine ⟨plan, rfl, ?_⟩
      cases hexec : s.tenant.exec plan.change.ddl with
      | none => simp [applyChange, executeTenantDdl, hexec] at h
      | some ten =>
        cases hwrite : plan.change.write s.catalog with
        | none =>
          simp only [applyChange, executeTenantDdl, hexec, writeCatalog, hwrite, if_false,
            Option.none_beq_some, Bool.false_eq_true] at h
          cases hundo : plan.change.compensating.bind ten.exec with
          | none => simp [hundo] at h
          | some ten' => simp [hundo] at h
        | some cat =>
          simp only [applyChange, executeTenantDdl, hexec, writeCatalog, hwrite, if_false, Option.none_beq_some,
            Bool.false_eq_true] at h
          cases hrecord : State.record { s with nextUuid := s.nextUuid + 2, tenant := ten, catalog := cat }
            (svc.done actor "") with
          | none => simp [hrecord] at h
          | some s₁ =>
            simp only [hrecord, Except.ok.injEq] at h
            obtain ⟨-, audit, rfl⟩ := record_some hrecord
            subst h
            exact ⟨hexec, hwrite, rfl, rfl, audit, rfl⟩
  · rw [Bool.not_eq_true] at hpermitted
    simp only [hpermitted, Bool.not_false, if_true] at h
    cases hrecord : s.record (svc.denied actor "") with
    | none => simp [hrecord] at h
    | some s₁ => simp [hrecord] at h

theorem Called.mayBuild {s s' : State} {plan : Plan} (h : Called s s' plan) {actor organization : Uuid}
    (hmay : MayBuild s actor organization) : MayBuild s' actor organization := by
  obtain ⟨audit, htables⟩ := h.tables
  constructor
  · rw [htables, h.now]
    exact hmay.create
  · rw [htables, h.now]
    exact hmay.manage

theorem Called.sound {s s' : State} {plan : Plan} (h : Called s s' plan) (hs : Databases.Sound s)
    {r : SchemaRequest} {svc : Service} (hr : r.Resolved s svc) (hplan : svc.plan = .ok plan) : Databases.Sound s' := by
  refine ⟨?_, hs.valid.exec h.exec⟩
  rw [h.next]
  exact hr.wellFormed_write hs.wellFormed hplan h.write

/-! ## What is exported -/

/-- The row of a primary key. -/
def IsKey (c : DBColumn) : Prop := SameColumn (newPrimaryKey 0) c

/-- What the services check of the rows of a catalog, and the place of the primary key among the columns. -/
structure Buildable (cat : Catalog) : Prop where
  databases : ∀ d ∈ cat.databases, d.name ≠ "" ∧ d.name.length ≤ 200
  databaseNames : Keyed (fun d => (d.project, d.name)) cat.databases
  tables : ∀ t ∈ cat.tables, validateIdentifier t.name "table name" = .ok ()
  columns : ∀ c ∈ cat.columns, c.isPrimaryKey = false →
    (∃ t x, columnDdl t (columnSpec c) = .ok x) ∧ Catalog.numbersFit c = true
  keyFirst : ∀ t ∈ cat.tables, ∃ key others, cat.columnsOf t = key :: others ∧ IsKey key ∧
    ∀ c ∈ others, c.isPrimaryKey = false
  foreignKeys : ∀ fk ∈ cat.foreignKeys, ∀ c ∈ cat.columns, c.id = fk.column → ∀ rc ∈ cat.columns,
    rc.id = fk.referencesColumn → (rc.isUnique = true ∨ rc.isPrimaryKey = true) ∧ c.dataType = rc.dataType ∧
      (fk.onDelete = .setNull → c.isNullable = true)

theorem buildable_empty : Buildable Catalog.empty := by
  refine ⟨?_, ?_, ?_, ?_, ?_, ?_⟩ <;> simp [Catalog.empty, Keyed]

theorem forall_mem_concat {α : Type} {P : α → Prop} {l : List α} {a : α} (h : ∀ x ∈ l, P x) (ha : P a) :
    ∀ x ∈ l ++ [a], P x := by
  intro x hx
  rcases List.mem_append.mp hx with hold | hlast
  · exact h x hold
  · rw [List.mem_singleton.mp hlast]
    exact ha

theorem insertDatabase_names {cat cat' : Catalog} {d : TenantDatabase} (h : cat.insertDatabase d = some cat') :
    ∀ x ∈ cat.databases, (x.project, x.name) ≠ (d.project, d.name) := by
  unfold Catalog.insertDatabase at h
  by_cases hname : cat.databases.any (fun x => x.project == d.project && x.name == d.name) = true
  · rw [if_pos hname] at h
    cases h
  · intro x hx heq
    obtain ⟨hproject, hsame⟩ := Prod.mk.inj heq
    exact hname (List.any_eq_true.mpr ⟨x, hx, by simp [hproject, hsame]⟩)

theorem insertColumn_numbersFit {cat cat' : Catalog} {c : DBColumn} {index : Option DBIndex}
    (h : cat.insertColumn c index = some cat') : Catalog.numbersFit c = true := by
  unfold Catalog.insertColumn at h
  split at h
  · cases h
  split at h
  · cases h
  split at h
  · cases h
  · rename_i hfit
    simpa using hfit

theorem validateForeignKey_setNull {cat : Catalog} {c : DBColumn} {t rt : DBTable} {rc : DBColumn}
    {onDelete : OnDelete} (h : validateForeignKey cat c t rt rc onDelete = .ok ()) (hset : onDelete = .setNull) :
    c.isNullable = true := by
  unfold validateForeignKey at h
  split at h
  · cases h
  split at h
  · cases h
  split at h
  · cases h
  split at h
  · cases h
  split at h
  · cases h
  · rename_i hnull
    rw [not_and] at hnull
    simpa using hnull hset

theorem columnsOf_append {cat : Catalog} {t : DBTable} {c : DBColumn} {indexes : List DBIndex} (tables : List DBTable) :
    ({ cat with tables, columns := cat.columns ++ [c], indexes } : Catalog).columnsOf t =
      cat.columnsOf t ++ if c.table = t.id then [c] else [] := by
  rw [Catalog.columnsOf, Catalog.columnsOf, List.filter_append]
  by_cases h : c.table = t.id
  · simp [h]
  · simp [h]

theorem Buildable.deleteTables {cat : Catalog} {fresh : Uuid} (hw : WellFormed cat fresh) (h : Buildable cat)
    (gone : DBTable → Bool) : Buildable (cat.deleteTables gone) where
  databases := h.databases
  databaseNames := h.databaseNames
  tables t ht := h.tables t (mem_deleteTables_tables.mp ht).1
  columns c hc := h.columns c (mem_deleteTables_columns.mp hc).1
  keyFirst t ht := by
    obtain ⟨hmem, hstays⟩ := mem_deleteTables_tables.mp ht
    have hcolumns : (cat.deleteTables gone).columnsOf t = cat.columnsOf t := by
      show (cat.columns.filter _).filter _ = cat.columns.filter _
      rw [List.filter_filter]
      refine List.filter_congr fun c _ => ?_
      by_cases hc : c.table = t.id
      · simp [hc, goneTable_eq hw.toTableRows hmem rfl, hstays]
      · simp [hc]
    rw [hcolumns]
    exact h.keyFirst t hmem
  foreignKeys fk hfk c hc hid rc hrc hrid :=
    h.foreignKeys fk (mem_deleteTables_foreignKeys.mp hfk).1 c (mem_deleteTables_columns.mp hc).1 hid rc
      (mem_deleteTables_columns.mp hrc).1 hrid

theorem Buildable.change {cat cat' : Catalog} {fresh : Uuid} (hw : WellFormed cat fresh) (h : Buildable cat)
    (hchange : CatalogChange cat fresh cat') : Buildable cat' := by
  cases hchange with
  | database project name hname hwrite =>
    have hnames := insertDatabase_names hwrite
    obtain rfl := insertDatabase_some hwrite
    exact ⟨forall_mem_concat h.databases hname, h.databaseNames.concat hnames, h.tables, h.columns, h.keyFirst,
      h.foreignKeys⟩
  | table d name hd hname hwrite =>
    obtain ⟨-, -, rfl⟩ := insertTable_some hwrite
    refine ⟨h.databases, h.databaseNames, forall_mem_concat h.tables hname, ?_, ?_, ?_⟩
    · exact forall_mem_concat h.columns fun hkey => by cases hkey
    · have hcolumns : ∀ t : DBTable, ({ cat with
          tables := cat.tables ++ [newTable fresh d name],
          columns := cat.columns ++ [newPrimaryKey fresh] } : Catalog).columnsOf t =
          cat.columnsOf t ++ if fresh = t.id then [newPrimaryKey fresh] else [] :=
        fun t => columnsOf_append _
      refine forall_mem_concat (fun t ht => ?_) ?_
      · have hne : fresh ≠ t.id := Nat.ne_of_gt (hw.tableFresh t ht)
        rw [hcolumns, if_neg hne, List.append_nil]
        exact h.keyFirst t ht
      · have hnone : cat.columnsOf (newTable fresh d name) = [] := by
          rw [Catalog.columnsOf, List.filter_eq_nil_iff]
          intro c hc hself
          obtain ⟨t, ht, hid⟩ := hw.columnTable c hc
          have hlt := hw.tableFresh t ht
          rw [hid, eq_of_beq hself] at hlt
          exact Nat.lt_irrefl _ hlt
        have hself : fresh = (newTable fresh d name).id := rfl
        rw [hcolumns, hnone, if_pos hself]
        exact ⟨_, [], rfl, rfl, List.forall_mem_nil _⟩
    · intro fk hfk
      obtain ⟨c₀, t₀, rt₀, rc₀, hres, -⟩ := hw.resolves fk hfk
      have hlt : fk.column < fresh ∧ fk.referencesColumn < fresh := by
        rw [← hres.column_id, ← hres.refColumn_id]
        exact ⟨hw.columnFresh _ hres.column_mem, hw.columnFresh _ hres.refColumn_mem⟩
      have hold : ∀ {c : DBColumn}, c ∈ cat.columns ++ [newPrimaryKey fresh] → c.id < fresh → c ∈ cat.columns := by
        intro c hc hid
        rcases List.mem_append.mp hc with hc | hc
        · exact hc
        · rw [List.mem_singleton.mp hc] at hid
          exact absurd hid (Nat.not_lt.mpr (Nat.le_succ fresh))
      intro c hc hid rc hrc hrid
      exact h.foreignKeys fk hfk c (hold hc (hid ▸ hlt.1)) hid rc (hold hrc (hrid ▸ hlt.2)) hrid
  | column t spec x ht hspec hwrite =>
    have hfit := insertColumn_numbersFit hwrite
    obtain ⟨-, -, rfl⟩ := insertColumn_some hwrite
    refine ⟨h.databases, h.databaseNames, h.tables, ?_, ?_, ?_⟩
    · exact forall_mem_concat h.columns fun _ => ⟨⟨t, x, hspec⟩, hfit⟩
    · intro u hu
      obtain ⟨key, others, hcolumns, hkey, hothers⟩ := h.keyFirst u hu
      have happend : ({ cat with
          columns := cat.columns ++ [newColumn fresh t spec],
          indexes := cat.indexes ++ (newIndex fresh t spec).toList } : Catalog).columnsOf u =
          cat.columnsOf u ++ if t.id = u.id then [newColumn fresh t spec] else [] :=
        columnsOf_append _
      by_cases hself : t.id = u.id
      · refine ⟨key, others ++ [newColumn fresh t spec], ?_, hkey, forall_mem_concat hothers rfl⟩
        rw [happend, if_pos hself, hcolumns]
        rfl
      · refine ⟨key, others, ?_, hkey, hothers⟩
        rw [happend, if_neg hself, hcolumns, List.append_nil]
    · intro fk hfk
      obtain ⟨c₀, t₀, rt₀, rc₀, hres, -⟩ := hw.resolves fk hfk
      have hlt : fk.column < fresh ∧ fk.referencesColumn < fresh := by
        rw [← hres.column_id, ← hres.refColumn_id]
        exact ⟨hw.columnFresh _ hres.column_mem, hw.columnFresh _ hres.refColumn_mem⟩
      have hold : ∀ {c : DBColumn}, c ∈ cat.columns ++ [newColumn fresh t spec] → c.id < fresh → c ∈ cat.columns := by
        intro c hc hid
        rcases List.mem_append.mp hc with hc | hc
        · exact hc
        · rw [List.mem_singleton.mp hc] at hid
          exact absurd hid (Nat.lt_irrefl fresh)
      intro c hc hid rc hrc hrid
      exact h.foreignKeys fk hfk c (hold hc (hid ▸ hlt.1)) hid rc (hold hrc (hrid ▸ hlt.2)) hrid
  | foreignKey c t rt rc onDelete hc ht hct hrt hrc hvalid hwrite =>
    obtain ⟨-, rfl⟩ := insertForeignKey_some hwrite
    refine ⟨h.databases, h.databaseNames, h.tables, h.columns, h.keyFirst, forall_mem_concat h.foreignKeys ?_⟩
    intro c' hc' hid rc' hrc' hrid
    obtain rfl := hw.columnIds c' hc' c hc hid
    obtain rfl := hw.columnIds rc' hrc' rc hrc hrid
    obtain ⟨-, hunique, htype⟩ := validateForeignKey_ok hvalid
    exact ⟨hunique, htype, validateForeignKey_setNull hvalid⟩
  | deleteTable t => exact h.deleteTables hw _
  | deleteDatabase d =>
    have hdeleted := h.deleteTables hw fun x => x.tenantDatabase == d.id
    exact ⟨fun x hx => hdeleted.databases x (List.mem_filter.mp hx).1, hdeleted.databaseNames.filter _,
      hdeleted.tables, hdeleted.columns, hdeleted.keyFirst, hdeleted.foreignKeys⟩

theorem Reachable.buildable {cat : Catalog} (h : Reachable cat) :
    ∃ fresh, WellFormed cat fresh ∧ cat.Distinct ∧ Buildable cat := by
  obtain ⟨s, as, hcat, hten, rfl⟩ := h
  have hempty : Catalog.empty.Distinct ∧ Buildable Catalog.empty :=
    ⟨⟨List.nodup_nil, List.nodup_nil, List.nodup_nil, List.nodup_nil⟩, buildable_empty⟩
  obtain ⟨hs, hdistinct, hbuildable⟩ := catalog_of_run (I := fun cat => cat.Distinct ∧ Buildable cat) hempty
    (fun hw h hchange => ⟨h.1.change hw hchange, h.2.change hw hchange⟩) hcat hten as
  exact ⟨_, hs.wellFormed, hdistinct, hbuildable⟩

/-! ## Statements that are accepted -/

theorem exec_createSchema_eq {ten : Tenant} {schema : SchemaName} (h : schema ∉ ten.schemas) :
    ten.exec (.createSchema schema) = some { ten with schemas := ten.schemas ++ [schema] } := by
  simp [Tenant.exec, h]

theorem exec_createTable_eq {ten : Tenant} {schema : SchemaName} {table : String} (hschema : schema ∈ ten.schemas)
    (htable : (schema, table) ∉ ten.tables) : ten.exec (.createTable schema table) = some { ten with
      tables := ten.tables ++ [(schema, table)], columns := ten.columns ++ [Tenant.idColumn schema table] } := by
  simp [Tenant.exec, hschema, htable]

theorem exec_addColumn_eq {ten : Tenant} {c : PhysicalColumn} (htable : (c.schema, c.table) ∈ ten.tables)
    (hcolumn : ∀ x ∈ ten.columns, ¬ x.At c.schema c.table c.name) :
    ten.exec (.addColumn c) = some { ten with columns := ten.columns ++ [c] } := by
  have hnone : ten.columns.any (fun x => (x.schema, x.table, x.name) == (c.schema, c.table, c.name)) = false := by
    rw [List.any_eq_false]
    intro x hx heq
    obtain ⟨hschema, hrest⟩ := Prod.mk.inj (eq_of_beq heq)
    obtain ⟨htable, hname⟩ := Prod.mk.inj hrest
    exact hcolumn x hx ⟨hschema, htable, hname⟩
  simp [Tenant.exec, htable, hnone]

theorem exec_addForeignKey_eq {ten : Tenant} {fk : PhysicalForeignKey} (hrefers : ten.refersTo fk = true)
    (hname : ∀ x ∈ ten.foreignKeys, x.schema = fk.schema → x.name ≠ fk.name) :
    ten.exec (.addForeignKey fk) = some { ten with foreignKeys := ten.foreignKeys ++ [fk] } := by
  have hnone : ten.foreignKeys.any (fun x => (x.schema, x.table, x.name) == (fk.schema, fk.table, fk.name)) =
      false := by
    rw [List.any_eq_false]
    intro x hx heq
    obtain ⟨hschema, hrest⟩ := Prod.mk.inj (eq_of_beq heq)
    exact hname x hx hschema (Prod.mk.inj hrest).2
  simp [Tenant.exec, hrefers, hnone]

theorem insertDatabase_eq {cat : Catalog} {d : TenantDatabase}
    (hname : ∀ x ∈ cat.databases, (x.project, x.name) ≠ (d.project, d.name)) :
    cat.insertDatabase d = some { cat with databases := cat.databases ++ [d] } := by
  have hnone : cat.databases.any (fun x => x.project == d.project && x.name == d.name) = false := by
    rw [List.any_eq_false]
    intro x hx heq
    rw [Bool.and_eq_true, beq_iff_eq, beq_iff_eq] at heq
    exact hname x hx (Prod.ext heq.1 heq.2)
  simp [Catalog.insertDatabase, hnone]

theorem insertTable_eq {cat : Catalog} {t : DBTable} (pk : DBColumn)
    (hdatabase : ∃ d ∈ cat.databases, d.id = t.tenantDatabase) (hname : ∀ x ∈ cat.tables, x.physical ≠ t.physical) :
    cat.insertTable t pk = some { cat with tables := cat.tables ++ [t], columns := cat.columns ++ [pk] } := by
  have hsome : cat.databases.any (fun d => d.id == t.tenantDatabase) = true := by simpa using hdatabase
  have hnone : cat.tables.any (fun x => x.tenantDatabase == t.tenantDatabase && x.name == t.name) = false := by
    rw [List.any_eq_false]
    intro x hx heq
    rw [Bool.and_eq_true, beq_iff_eq, beq_iff_eq] at heq
    exact hname x hx (by rw [DBTable.physical, DBTable.physical, heq.1, heq.2])
  simp [Catalog.insertTable, hsome, hnone]

theorem insertColumn_eq {cat : Catalog} (c : DBColumn) (index : Option DBIndex)
    (htable : ∃ t ∈ cat.tables, t.id = c.table) (hname : ∀ x ∈ cat.columns, (x.table, x.name) ≠ (c.table, c.name))
    (hfit : Catalog.numbersFit c = true) : cat.insertColumn c index =
      some { cat with columns := cat.columns ++ [c], indexes := cat.indexes ++ index.toList } := by
  have hsome : cat.tables.any (fun t => t.id == c.table) = true := by simpa using htable
  have hnone : cat.columns.any (fun x => x.table == c.table && x.name == c.name) = false := by
    rw [List.any_eq_false]
    intro x hx heq
    rw [Bool.and_eq_true, beq_iff_eq, beq_iff_eq] at heq
    exact hname x hx (Prod.ext heq.1 heq.2)
  simp [Catalog.insertColumn, hsome, hnone, hfit]

theorem insertForeignKey_eq {cat : Catalog} (fk : DBForeignKey) (hcolumn : ∃ c ∈ cat.columns, c.id = fk.column)
    (htable : ∃ t ∈ cat.tables, t.id = fk.referencesTable)
    (hreferenced : ∃ c ∈ cat.columns, c.id = fk.referencesColumn)
    (hnew : ∀ x ∈ cat.foreignKeys, x.column ≠ fk.column) :
    cat.insertForeignKey fk = some { cat with foreignKeys := cat.foreignKeys ++ [fk] } := by
  have hsome : cat.columns.any (fun c => c.id == fk.column) = true := by simpa using hcolumn
  have hsome' : cat.tables.any (fun t => t.id == fk.referencesTable) = true := by simpa using htable
  have hsome'' : cat.columns.any (fun c => c.id == fk.referencesColumn) = true := by simpa using hreferenced
  have hnone : cat.foreignKeys.any (fun x => x.column == fk.column) = false := by
    rw [List.any_eq_false]
    intro x hx heq
    exact hnew x hx (eq_of_beq heq)
  simp [Catalog.insertForeignKey, hsome, hsome', hsome'', hnone]

/-! ## Tables and columns -/

/-- What the restore has made of a tenant database, whose foreign keys are still to come: tables with their columns,
in the catalog and in the schema of the database, and known by their names. -/
structure Made (actor organization : Uuid) (s₀ : State) (d : TenantDatabase) (placed : List (DBTable × List DBColumn))
    (s : State) (refs : Refs) : Prop where
  sound : Databases.Sound s
  mayBuild : MayBuild s actor organization
  databases : s.catalog.databases = s₀.catalog.databases ++ [d]
  tables : s.catalog.tables = s₀.catalog.tables ++ placed.map (·.1)
  columns : s.catalog.columns = s₀.catalog.columns ++ placed.flatMap (·.2)
  foreignKeys : s.catalog.foreignKeys = s₀.catalog.foreignKeys
  own : ∀ p ∈ placed, p.1.tenantDatabase = d.id ∧ ∀ c ∈ p.2, c.table = p.1.id
  names : (placed.map fun p => p.1.name).Nodup
  schemas : s.tenant.schemas = s₀.tenant.schemas ++ [⟨d.id⟩]
  tenantTables : ∀ name, (⟨d.id⟩, name) ∈ s.tenant.tables ↔ ∃ p ∈ placed, p.1.name = name
  tenantColumns : ∀ c : PhysicalColumn, c.schema = ⟨d.id⟩ →
    (c ∈ s.tenant.columns ↔ ∃ p ∈ placed, ∃ c' ∈ p.2, p.1.physicalColumn c' = c)
  tenantKeys : ∀ fk ∈ s.tenant.foreignKeys, fk.schema ≠ ⟨d.id⟩
  refTables : refs.tables = (placed.map fun p => (p.1.name, p.1)).reverse
  refColumns : refs.columns = (placed.flatMap fun p => p.2.map fun c => ((p.1.name, c.name), c)).reverse

section Made

variable {actor organization : Uuid} {s₀ s : State} {d : TenantDatabase} {placed : List (DBTable × List DBColumn)}
  {refs : Refs}

/-- A table that was there before is in another database. -/
theorem Made.old_ne (hs₀ : Databases.Sound s₀) (hd : d.id = s₀.nextUuid) {t : DBTable} (ht : t ∈ s₀.catalog.tables) :
    t.tenantDatabase ≠ d.id := by
  intro hself
  obtain ⟨d₀, hd₀, hid⟩ := hs₀.wellFormed.tableDatabase t ht
  have hlt := hs₀.wellFormed.databaseFresh d₀ hd₀
  rw [hid, hself, hd] at hlt
  exact Nat.lt_irrefl _ hlt

theorem Made.physical (h : Made actor organization s₀ d placed s refs) {p : DBTable × List DBColumn}
    (hp : p ∈ placed) : p.1.physical = (⟨d.id⟩, p.1.name) := by
  rw [DBTable.physical, (h.own p hp).1]

theorem Made.mem_tables (h : Made actor organization s₀ d placed s refs) {p : DBTable × List DBColumn}
    (hp : p ∈ placed) : p.1 ∈ s.catalog.tables := by
  rw [h.tables]
  exact List.mem_append_right _ (List.mem_map_of_mem hp)

theorem Made.mem_columns (h : Made actor organization s₀ d placed s refs) {p : DBTable × List DBColumn}
    (hp : p ∈ placed) {c : DBColumn} (hc : c ∈ p.2) : c ∈ s.catalog.columns := by
  rw [h.columns]
  exact List.mem_append_right _ (List.mem_flatMap.mpr ⟨p, hp, hc⟩)

theorem Made.eq_of_name (h : Made actor organization s₀ d placed s refs) {p q : DBTable × List DBColumn}
    (hp : p ∈ placed) (hq : q ∈ placed) (hname : p.1.name = q.1.name) : p = q :=
  List.inj_on_of_nodup_map h.names hp hq hname

theorem Made.eq_of_id (h : Made actor organization s₀ d placed s refs) {p q : DBTable × List DBColumn}
    (hp : p ∈ placed) (hq : q ∈ placed) (hid : p.1.id = q.1.id) : p = q := by
  have htable := h.sound.wellFormed.tableIds p.1 (h.mem_tables hp) q.1 (h.mem_tables hq) hid
  exact h.eq_of_name hp hq (congrArg DBTable.name htable)

/-- `create_table` goes through for a name that the database does not have yet. -/
theorem Made.concat_table (hs₀ : Databases.Sound s₀) (hd : d.id = s₀.nextUuid)
    (h : Made actor organization s₀ d placed s refs) {name : String}
    (hname : validateIdentifier name "table name" = .ok ()) (hnew : ∀ p ∈ placed, p.1.name ≠ name) :
    ∃ s', callService actor s (createTable s.nextUuid organization d name) = .ok s' ∧
      Made actor organization s₀ d (placed ++ [(newTable s.nextUuid d name, [newPrimaryKey s.nextUuid])])
        s' { tables := (name, newTable s.nextUuid d name) :: refs.tables
             columns := ((name, "id"), newPrimaryKey s.nextUuid) :: refs.columns } := by
  have hmem : d ∈ s.catalog.databases := by
    rw [h.databases]
    exact List.mem_append_right _ (List.mem_singleton_self d)
  have hr : SchemaRequest.Resolved s (.createTable d.id name) (createTable s.nextUuid organization d name) :=
    .createTable organization d hmem rfl
  have hplan : (createTable s.nextUuid organization d name).plan =
      .ok (.createTable (newTable s.nextUuid d name) (newPrimaryKey s.nextUuid)) := by
    simp [createTable, hname]
  have hschema : (⟨d.id⟩ : SchemaName) ∈ s.tenant.schemas := by
    rw [h.schemas]
    exact List.mem_append_right _ (List.mem_singleton_self _)
  have htable : ((⟨d.id⟩ : SchemaName), name) ∉ s.tenant.tables := by
    intro hin
    obtain ⟨p, hp, heq⟩ := (h.tenantTables name).mp hin
    exact hnew p hp heq
  have hphysical : ∀ x ∈ s.catalog.tables, x.physical ≠ (newTable s.nextUuid d name).physical := by
    intro x hx heq
    rw [h.tables] at hx
    obtain ⟨hdatabase, hsame⟩ := Prod.mk.inj heq
    rcases List.mem_append.mp hx with hold | hplaced
    · exact Made.old_ne hs₀ hd hold (SchemaName.mk.inj hdatabase)
    · obtain ⟨p, hp, rfl⟩ := List.mem_map.mp hplaced
      exact hnew p hp hsame
  have hexec := exec_createTable_eq hschema htable
  have hwrite := insertTable_eq (newPrimaryKey s.nextUuid) ⟨d, hmem, rfl⟩ hphysical
  have hfits := hr.done_fits actor ""
  obtain ⟨s', hcall, hcalled, hten, hcat⟩ := callService_eq actor h.mayBuild.manage hplan hexec hwrite hfits
  refine ⟨s', hcall, ?_⟩
  constructor
  · exact hcalled.sound h.sound hr hplan
  · exact hcalled.mayBuild h.mayBuild
  · rw [hcat]
    exact h.databases
  · rw [hcat]
    simp only [h.tables, List.map_append, List.map_cons, List.map_nil, List.append_assoc]
  · rw [hcat]
    simp only [h.columns, List.flatMap_append, List.flatMap_cons, List.flatMap_nil, List.append_assoc, List.append_nil]
  · rw [hcat]
    exact h.foreignKeys
  · refine forall_mem_concat h.own ⟨rfl, fun c hc => ?_⟩
    rw [List.mem_singleton.mp hc]
    rfl
  · exact nodup_map_concat h.names hnew
  · rw [hten]
    exact h.schemas
  · intro name'
    rw [hten]
    simp only [List.mem_append, h.tenantTables, List.mem_singleton, Prod.mk.injEq, true_and]
    constructor
    · rintro (⟨p, hp, rfl⟩ | rfl)
      · exact ⟨p, .inl hp, rfl⟩
      · exact ⟨_, .inr rfl, rfl⟩
    · rintro ⟨p, hp | rfl, rfl⟩
      · exact .inl ⟨p, hp, rfl⟩
      · exact .inr rfl
  · intro c hc
    rw [hten]
    simp only [List.mem_append, h.tenantColumns c hc, List.mem_singleton]
    constructor
    · rintro (⟨p, hp, c', hc', rfl⟩ | rfl)
      · exact ⟨p, .inl hp, c', hc', rfl⟩
      · exact ⟨_, .inr rfl, _, List.mem_singleton_self _, rfl⟩
    · rintro ⟨p, hp | rfl, c', hc', rfl⟩
      · exact .inl ⟨p, hp, c', hc', rfl⟩
      · rw [List.mem_singleton.mp hc']
        exact .inr rfl
  · rw [hten]
    exact h.tenantKeys
  · simp only [h.refTables, List.map_append, List.map_cons, List.map_nil, List.reverse_append, List.reverse_cons,
      List.reverse_nil, List.nil_append, List.singleton_append]
    rfl
  · simp only [h.refColumns, List.flatMap_append, List.flatMap_cons, List.flatMap_nil, List.reverse_append,
      List.map_cons, List.map_nil, List.append_nil, List.reverse_cons, List.reverse_nil, List.nil_append,
      List.singleton_append]
    rfl

/-- `add_column` accepts the column, for whatever table. -/
structure AcceptedColumn (spec : ColumnSpec) : Prop where
  ddl : ∀ t : DBTable, ∀ fresh, columnDdl t spec = .ok (t.physicalColumn (newColumn fresh t spec))
  numbersFit : ∀ t : DBTable, ∀ fresh, Catalog.numbersFit (newColumn fresh t spec) = true

theorem accepted_of_columnDdl {t : DBTable} {spec : ColumnSpec} {x : PhysicalColumn} (h : columnDdl t spec = .ok x)
    (hfit : Catalog.numbersFit (newColumn 0 t spec) = true) : AcceptedColumn spec := by
  refine ⟨fun t' fresh => ?_, fun _ _ => hfit⟩
  have hsome : ∃ y, columnDdl t' spec = .ok y := by
    unfold columnDdl at h ⊢
    cases hname : validateColumnName spec.name with
    | error e => simp [hname] at h
    | ok u =>
      cases htype : columnTypeSql spec.dataType spec.maxLength spec.precision spec.scale with
      | error e => simp [hname, htype] at h
      | ok type =>
        cases hdefault : defaultClauseSql spec.dataType spec.defaultValue with
        | error e => simp [hname, htype, hdefault] at h
        | ok default => exact ⟨_, rfl⟩
  obtain ⟨y, hy⟩ := hsome
  have hcolumn : y = t'.physicalColumn (newColumn fresh t' spec) := columnDdl_ok hy
  rw [hy, hcolumn]

/-- `add_column` goes through for a name that the table does not have yet. -/
theorem Made.concat_column (hs₀ : Databases.Sound s₀) (hd : d.id = s₀.nextUuid) {table : DBTable}
    {columns : List DBColumn} (h : Made actor organization s₀ d (placed ++ [(table, columns)]) s refs)
    {spec : ColumnSpec} (hspec : AcceptedColumn spec) (hnew : ∀ c ∈ columns, c.name ≠ spec.name) :
    ∃ s', callService actor s (addColumn s.nextUuid organization table spec) = .ok s' ∧
      Made actor organization s₀ d (placed ++ [(table, columns ++ [newColumn s.nextUuid table spec])])
        s' { refs with columns := ((table.name, spec.name), newColumn s.nextUuid table spec) :: refs.columns } := by
  have hlast : (table, columns) ∈ placed ++ [(table, columns)] :=
    List.mem_append_right _ (List.mem_singleton_self _)
  have hmem : table ∈ s.catalog.tables := h.mem_tables hlast
  have hr : SchemaRequest.Resolved s (.addColumn table.id spec) (addColumn s.nextUuid organization table spec) :=
    .addColumn organization table hmem rfl
  have hplan : (addColumn s.nextUuid organization table spec).plan =
      .ok (.addColumn table (newColumn s.nextUuid table spec) (newIndex s.nextUuid table spec)
        (table.physicalColumn (newColumn s.nextUuid table spec))) := by
    simp [addColumn, hspec.ddl table s.nextUuid]
  have htable : table.physical ∈ s.tenant.tables := by
    rw [h.physical hlast]
    exact (h.tenantTables _).mpr ⟨_, hlast, rfl⟩
  have hcolumn : ∀ x ∈ s.tenant.columns, ¬ x.At ⟨table.tenantDatabase⟩ table.name spec.name := by
    rintro x hx ⟨hschema, hname, hsame⟩
    rw [(h.own _ hlast).1] at hschema
    obtain ⟨p, hp, c, hc, rfl⟩ := (h.tenantColumns x hschema).mp hx
    obtain rfl := h.eq_of_name hp hlast hname
    exact hnew c hc hsame
  have hnames : ∀ x ∈ s.catalog.columns, (x.table, x.name) ≠ (table.id, spec.name) := by
    intro x hx heq
    obtain ⟨hid, hsame⟩ := Prod.mk.inj heq
    rw [h.columns] at hx
    rcases List.mem_append.mp hx with hold | hplaced
    · obtain ⟨t, ht, htid⟩ := hs₀.wellFormed.columnTable x hold
      have hin : t ∈ s.catalog.tables := by
        rw [h.tables]
        exact List.mem_append_left _ ht
      obtain rfl := h.sound.wellFormed.tableIds t hin table hmem (htid.trans hid)
      exact Made.old_ne hs₀ hd ht (h.own _ hlast).1
    · obtain ⟨p, hp, hc⟩ := List.mem_flatMap.mp hplaced
      obtain rfl := h.eq_of_id hp hlast (((h.own p hp).2 x hc).symm.trans hid)
      exact hnew x hc hsame
  have hexec := exec_addColumn_eq (c := table.physicalColumn (newColumn s.nextUuid table spec)) htable hcolumn
  have hwrite := insertColumn_eq (newColumn s.nextUuid table spec) (newIndex s.nextUuid table spec)
    ⟨table, hmem, rfl⟩ hnames (hspec.numbersFit table s.nextUuid)
  have hfits := hr.done_fits actor ""
  obtain ⟨s', hcall, hcalled, hten, hcat⟩ := callService_eq actor h.mayBuild.manage hplan hexec hwrite hfits
  refine ⟨s', hcall, ?_⟩
  constructor
  · exact hcalled.sound h.sound hr hplan
  · exact hcalled.mayBuild h.mayBuild
  · rw [hcat]
    exact h.databases
  · rw [hcat]
    simp only [h.tables, List.map_append, List.map_cons, List.map_nil]
  · rw [hcat]
    simp only [h.columns, List.flatMap_append, List.flatMap_cons, List.flatMap_nil, List.append_assoc, List.append_nil]
  · rw [hcat]
    exact h.foreignKeys
  · refine forall_mem_concat (fun p hp => h.own p (List.mem_append_left _ hp)) ⟨(h.own _ hlast).1, ?_⟩
    exact forall_mem_concat (h.own _ hlast).2 rfl
  · have hnodup := h.names
    rw [List.map_append] at hnodup ⊢
    exact hnodup
  · rw [hten]
    exact h.schemas
  · intro name'
    rw [hten]
    have hold := h.tenantTables name'
    simp only [List.mem_append, List.mem_singleton, or_and_right, exists_or, exists_eq_left] at hold ⊢
    exact hold
  · intro c hc
    rw [hten]
    have hold := h.tenantColumns c hc
    simp only [List.mem_append, List.mem_singleton, or_and_right, exists_or, exists_eq_left] at hold ⊢
    rw [hold, or_assoc, @eq_comm _ c]
  · rw [hten]
    exact h.tenantKeys
  · simp only [h.refTables, List.map_append, List.map_cons, List.map_nil]
  · simp only [h.refColumns, List.flatMap_append, List.flatMap_cons, List.flatMap_nil, List.reverse_append,
      List.map_append, List.map_cons, List.map_nil, List.append_nil, List.reverse_cons, List.reverse_nil,
      List.nil_append, List.cons_append]
    rfl

theorem Made.restoreColumns_eq (hs₀ : Databases.Sound s₀) (hd : d.id = s₀.nextUuid) {table : DBTable}
    {specs : List ColumnSpec} (hspecs : ∀ spec ∈ specs, AcceptedColumn spec) :
    ∀ {s : State} {refs : Refs} {columns : List DBColumn},
      Made actor organization s₀ d (placed ++ [(table, columns)]) s refs →
      (columns.map (·.name) ++ specs.map (·.name)).Nodup →
      ∃ s' refs' new, restoreColumns actor organization table specs (s, refs) = .ok (s', refs') ∧
        Made actor organization s₀ d (placed ++ [(table, columns ++ new)]) s' refs' ∧
        new.map columnSpec = specs ∧ ∀ c ∈ new, c.isPrimaryKey = false := by
  induction specs with
  | nil =>
    intro s refs columns h _
    refine ⟨s, refs, [], rfl, ?_, rfl, List.forall_mem_nil _⟩
    rwa [List.append_nil]
  | cons spec specs ih =>
    intro s refs columns h hnames
    rw [List.forall_mem_cons] at hspecs
    have hnew : ∀ c ∈ columns, c.name ≠ spec.name := by
      intro c hc
      rw [List.nodup_append] at hnames
      exact hnames.2.2 _ (List.mem_map_of_mem hc) _ (List.mem_cons_self ..)
    obtain ⟨s₁, hcall, hmade⟩ := h.concat_column hs₀ hd hspecs.1 hnew
    have hrest : ((columns ++ [newColumn s.nextUuid table spec]).map (·.name) ++ specs.map (·.name)).Nodup := by
      rw [List.map_append, List.append_assoc]
      exact hnames
    obtain ⟨s', refs', new, hrestored, hmade', hmap, hkeys⟩ := ih hspecs.2 hmade hrest
    refine ⟨s', refs', newColumn s.nextUuid table spec :: new, ?_, ?_, ?_, ?_⟩
    · rw [restoreColumns, hcall]
      exact hrestored
    · rwa [List.append_assoc] at hmade'
    · rw [List.map_cons, hmap]
      rfl
    · exact List.forall_mem_cons.mpr ⟨rfl, hkeys⟩

/-- A table of `schema.json` that the services accept. -/
structure AcceptedTable (t : TableData) : Prop where
  name : validateIdentifier t.name "table name" = .ok ()
  columns : ∀ spec ∈ t.columns, AcceptedColumn spec
  columnNames : ("id" :: t.columns.map (·.name)).Nodup

/-- The table with its columns is what the restore makes of the entry. -/
structure MadeOf (t : TableData) (p : DBTable × List DBColumn) : Prop where
  name : p.1.name = t.name
  columns : ∃ key others, p.2 = key :: others ∧ IsKey key ∧ others.map columnSpec = t.columns ∧
    ∀ c ∈ others, c.isPrimaryKey = false

theorem Made.restoreTables_eq (hs₀ : Databases.Sound s₀) (hd : d.id = s₀.nextUuid) {tables : List TableData}
    (htables : ∀ t ∈ tables, AcceptedTable t) :
    ∀ {s : State} {refs : Refs} {placed : List (DBTable × List DBColumn)},
      Made actor organization s₀ d placed s refs →
      ((placed.map fun p => p.1.name) ++ tables.map (·.name)).Nodup →
      ∃ s' refs' new, restoreTables actor organization d tables (s, refs) = .ok (s', refs') ∧
        Made actor organization s₀ d (placed ++ new) s' refs' ∧ List.Forall₂ MadeOf tables new := by
  induction tables with
  | nil =>
    intro s refs placed h _
    refine ⟨s, refs, [], rfl, ?_, .nil⟩
    rwa [List.append_nil]
  | cons t tables ih =>
    intro s refs placed h hnames
    rw [List.forall_mem_cons] at htables
    have hnew : ∀ p ∈ placed, p.1.name ≠ t.name := by
      intro p hp
      rw [List.nodup_append] at hnames
      exact hnames.2.2 _ (List.mem_map_of_mem hp) _ (List.mem_cons_self ..)
    obtain ⟨s₁, hcall, hmade⟩ := h.concat_table hs₀ hd htables.1.name hnew
    obtain ⟨s₂, refs₂, others, hcolumns, hmade₂, hmap, hkeys⟩ :=
      hmade.restoreColumns_eq hs₀ hd htables.1.columns htables.1.columnNames
    have hrest : ((placed ++ [(newTable s.nextUuid d t.name, newPrimaryKey s.nextUuid :: others)]).map
        (fun p => p.1.name) ++ tables.map (·.name)).Nodup := by
      rw [List.map_append, List.append_assoc]
      exact hnames
    obtain ⟨s', refs', new, hrestored, hmade', hforall⟩ := ih htables.2 hmade₂ hrest
    refine ⟨s', refs', (newTable s.nextUuid d t.name, newPrimaryKey s.nextUuid :: others) :: new, ?_, ?_, ?_⟩
    · rw [restoreTables, restoreTable]
      dsimp only
      rw [hcall]
      dsimp only
      rw [hcolumns]
      exact hrestored
    · rwa [List.append_assoc] at hmade'
    · exact .cons ⟨rfl, _, others, rfl, rfl, hmap, hkeys⟩ hforall

end Made

/-! ## The tables of a reachable catalog -/

section Source

variable {cat : Catalog} {fresh : Uuid} {d : TenantDatabase} {records : DBTable → List Python.Csv.Record}

/-- The entry of a table in `schema.json`. -/
def tableEntry (cat : Catalog) (records : DBTable → List Python.Csv.Record) (d : TenantDatabase) (t : DBTable) :
    TableData :=
  tableData (databaseContent cat records d) (tableContent cat records t)

theorem schemaTables_eq : schemaTables cat records d = (tablesOf cat d).map (tableEntry cat records d) := by
  rw [schemaTables, databaseContent, List.map_map]
  rfl

theorem names_schemaTables : (schemaTables cat records d).map (·.name) = (tablesOf cat d).map (·.name) := by
  rw [schemaTables_eq, List.map_map]
  rfl

theorem mem_tablesOf {t : DBTable} : t ∈ tablesOf cat d ↔ t ∈ cat.tables ∧ t.tenantDatabase = d.id := by
  rw [tablesOf, List.mem_filter, beq_iff_eq]

theorem nodup_tableNames (hw : WellFormed cat fresh) (hdistinct : cat.Distinct) :
    ((tablesOf cat d).map (·.name)).Nodup := by
  have hnodup : (tablesOf cat d).Nodup := (List.Nodup.of_map _ hdistinct.tables).filter _
  refine hnodup.map_on fun t ht u hu hname => ?_
  obtain ⟨htmem, htdb⟩ := mem_tablesOf.mp ht
  obtain ⟨humem, hudb⟩ := mem_tablesOf.mp hu
  refine hw.tableNames t htmem u humem ?_
  show t.physical = u.physical
  rw [DBTable.physical, DBTable.physical, htdb, hudb, hname]

theorem nodup_columnNames (hw : WellFormed cat fresh) (hdistinct : cat.Distinct) (t : DBTable) :
    ((cat.columnsOf t).map (·.name)).Nodup := by
  have hnodup : (cat.columnsOf t).Nodup := (List.Nodup.of_map _ hdistinct.columns).filter _
  refine hnodup.map_on fun c hc c' hc' hname => ?_
  obtain ⟨hcmem, hctable⟩ := List.mem_filter.mp hc
  obtain ⟨hcmem', hctable'⟩ := List.mem_filter.mp hc'
  refine hw.columnNames c hcmem c' hcmem' ?_
  show (c.table, c.name) = (c'.table, c'.name)
  rw [eq_of_beq hctable, eq_of_beq hctable', hname]

variable (d records) in
/-- What the package has of the columns of a table: those after the primary key. -/
theorem exists_columnsOf (hb : Buildable cat) {t : DBTable} (ht : t ∈ cat.tables) :
    ∃ key others, cat.columnsOf t = key :: others ∧ IsKey key ∧ (∀ c ∈ others, c.isPrimaryKey = false) ∧
      (tableEntry cat records d t).columns = others.map columnSpec := by
  obtain ⟨key, others, hcolumns, hkey, hothers⟩ := hb.keyFirst t ht
  refine ⟨key, others, hcolumns, hkey, hothers, ?_⟩
  have hprimary : key.isPrimaryKey = true := by
    rw [hkey]
    rfl
  have hfilter : (cat.columns.filter fun c => c.table == t.id && !c.isPrimaryKey) = others := by
    have hsplit : (cat.columns.filter fun c => c.table == t.id && !c.isPrimaryKey) =
        (cat.columnsOf t).filter fun c => !c.isPrimaryKey := by
      rw [Catalog.columnsOf, List.filter_filter]
      exact List.filter_congr fun c _ => Bool.and_comm ..
    rw [hsplit, hcolumns, List.filter_cons_of_neg (by simp [hprimary]), List.filter_eq_self]
    intro c hc
    rw [hothers c hc]
    rfl
  show (cat.columns.filter fun c => c.table == t.id && !c.isPrimaryKey).map columnSpec = others.map columnSpec
  rw [hfilter]

theorem acceptedTable (hw : WellFormed cat fresh) (hdistinct : cat.Distinct) (hb : Buildable cat) {t : DBTable}
    (ht : t ∈ cat.tables) : AcceptedTable (tableEntry cat records d t) := by
  obtain ⟨key, others, hcolumns, hkey, hothers, hspecs⟩ := exists_columnsOf d records hb ht
  refine ⟨hb.tables t ht, ?_, ?_⟩
  · rw [hspecs]
    intro spec hspec
    obtain ⟨c, hc, rfl⟩ := List.mem_map.mp hspec
    have hmem : c ∈ cat.columnsOf t := by
      rw [hcolumns]
      exact List.mem_cons_of_mem _ hc
    obtain ⟨⟨t', x, hddl⟩, hfit⟩ := hb.columns c (List.mem_filter.mp hmem).1 (hothers c hc)
    exact accepted_of_columnDdl hddl hfit
  · have hnames := nodup_columnNames hw hdistinct t
    have hid : key.name = "id" := by
      rw [hkey]
      rfl
    rw [hcolumns, List.map_cons, hid] at hnames
    rw [hspecs, List.map_map]
    exact hnames

/-- The table is made anew, with the same columns in the same order. -/
structure Corresponds (cat : Catalog) (t : DBTable) (p : DBTable × List DBColumn) : Prop where
  name : p.1.name = t.name
  columns : List.Forall₂ SameColumn (cat.columnsOf t) p.2

theorem sameColumn_of_spec {c c' : DBColumn} (hspec : columnSpec c' = columnSpec c) (hkey : c.isPrimaryKey = false)
    (hkey' : c'.isPrimaryKey = false) : SameColumn c c' := by
  obtain ⟨id, table, name, dataType, maxLength, precision, scale, isPrimaryKey, isNullable, isUnique, default⟩ := c
  obtain ⟨id', table', name', dataType', maxLength', precision', scale', isPrimaryKey', isNullable', isUnique',
    default'⟩ := c'
  simp only [columnSpec, ColumnSpec.mk.injEq] at hspec
  obtain ⟨rfl, rfl, rfl, rfl, rfl, rfl, rfl, rfl⟩ := hspec
  obtain rfl : isPrimaryKey = false := hkey
  obtain rfl : isPrimaryKey' = false := hkey'
  rfl

theorem sameColumn_of_isKey {c c' : DBColumn} (hc : IsKey c) (hc' : IsKey c') : SameColumn c c' := by
  unfold IsKey SameColumn at *
  rw [hc, hc']

theorem forall₂_of_map {α β γ : Type} {R : α → β → Prop} {f : α → γ} {g : β → γ} :
    ∀ {as : List α} {bs : List β}, bs.map g = as.map f → (∀ a ∈ as, ∀ b ∈ bs, g b = f a → R a b) → List.Forall₂ R as bs
  | [], [], _, _ => .nil
  | a :: as, b :: bs, hmap, hR => by
    obtain ⟨hhead, htail⟩ := List.cons.inj hmap
    refine .cons (hR a (List.mem_cons_self ..) b (List.mem_cons_self ..) hhead) (forall₂_of_map htail ?_)
    exact fun a ha b hb => hR a (List.mem_cons_of_mem _ ha) b (List.mem_cons_of_mem _ hb)
  | [], _ :: _, hmap, _ => by cases hmap
  | _ :: _, [], hmap, _ => by cases hmap

theorem corresponds_of_madeOf (hb : Buildable cat) {t : DBTable} (ht : t ∈ cat.tables) {p : DBTable × List DBColumn}
    (h : MadeOf (tableEntry cat records d t) p) : Corresponds cat t p := by
  obtain ⟨key, others, hcolumns, hkey, hothers, hspecs⟩ := exists_columnsOf d records hb ht
  obtain ⟨key', others', hplaced, hkey', hmap, hothers'⟩ := h.columns
  refine ⟨h.name, ?_⟩
  rw [hcolumns, hplaced]
  refine .cons (sameColumn_of_isKey hkey hkey') (forall₂_of_map (hmap.trans hspecs) ?_)
  exact fun c hc c' hc' hsame => sameColumn_of_spec hsame (hothers c hc) (hothers' c' hc')

end Source

end Exports
