import IntraCloud.Databases.Proofs.AgreementProofs
import IntraCloud.Exports.Proofs.SchemaRestoreProofs

/-!
# What a restore keeps, whatever the package says

The schema of a package is only ever read by the schema services, so one that nobody exported can be refused, but it
cannot make the catalog and the tenant database disagree.
-/

namespace Exports

open Audit Databases Organizations Permissions Relational Transition

variable {actor organization : Uuid} {s s' : State} {d : TenantDatabase} {refs refs' : Refs}

/-! ## Calls -/

/-- A service that creates keeps what holds of the two databases. -/
theorem inv_of_callService (hs : Inv s) {r : SchemaRequest} {svc : Service} (hr : r.Resolved s svc)
    (hcreates : r.deletes = none) (h : callService actor s svc = .ok s') :
    Inv s' ∧ ∃ plan, svc.plan = .ok plan ∧ plan.change.write s.catalog = some s'.catalog := by
  obtain ⟨plan, hplan, hcalled⟩ := called_of_ok h
  have hsound := hcalled.sound ⟨hs.wellFormed, hs.valid⟩ hr hplan
  have hunsevered : Unsevered s r := by
    intro gone hgone
    rw [hcreates] at hgone
    cases hgone
  have hagrees := hr.agrees_write hs hplan hunsevered hcalled.exec hcalled.write
  exact ⟨⟨hsound.wellFormed, hagrees, hsound.valid⟩, plan, hplan, hcalled.write⟩

/-! ## Tables and columns -/

/-- The restore of a tenant database under way: the rows it has by name are rows of that database. -/
structure Tracked (d : TenantDatabase) (s : State) (refs : Refs) : Prop where
  inv : Inv s
  database : d ∈ s.catalog.databases
  tables : ∀ entry ∈ refs.tables, entry.2 ∈ s.catalog.tables ∧ entry.2.name = entry.1 ∧
    entry.2.tenantDatabase = d.id
  columns : ∀ entry ∈ refs.columns, entry.2 ∈ s.catalog.columns ∧ ∃ t ∈ s.catalog.tables, t.id = entry.2.table ∧
    t.name = entry.1.1 ∧ t.tenantDatabase = d.id

theorem Tracked.mono (h : Tracked d s refs) (hinv : Inv s') (hdatabases : s'.catalog.databases = s.catalog.databases)
    (htables : ∀ t ∈ s.catalog.tables, t ∈ s'.catalog.tables)
    (hcolumns : ∀ c ∈ s.catalog.columns, c ∈ s'.catalog.columns) : Tracked d s' refs where
  inv := hinv
  database := by
    rw [hdatabases]
    exact h.database
  tables := by
    intro entry hentry
    obtain ⟨hmem, hname, hdb⟩ := h.tables entry hentry
    exact ⟨htables _ hmem, hname, hdb⟩
  columns := by
    intro entry hentry
    obtain ⟨hmem, t, ht, hrest⟩ := h.columns entry hentry
    exact ⟨hcolumns _ hmem, t, htables t ht, hrest⟩

/-- `create_table`, and the entries of the table and of its primary key. -/
theorem Tracked.createTable (h : Tracked d s refs) {name : String}
    (hcall : callService actor s (Databases.createTable s.nextUuid organization d name) = .ok s') :
    newTable s.nextUuid d name ∈ s'.catalog.tables ∧
      Tracked d s' ⟨(name, newTable s.nextUuid d name) :: refs.tables,
        ((name, "id"), newPrimaryKey s.nextUuid) :: refs.columns⟩ := by
  have hr : SchemaRequest.Resolved s (.createTable d.id name) (Databases.createTable s.nextUuid organization d name) :=
    .createTable organization d h.database rfl
  obtain ⟨hinv, plan, hplan, hwrite⟩ := inv_of_callService h.inv hr rfl hcall
  simp only [Databases.createTable] at hplan
  split at hplan
  · cases hplan
  cases hplan
  obtain ⟨-, -, hcat⟩ := insertTable_some hwrite
  have htable : newTable s.nextUuid d name ∈ s'.catalog.tables := by
    rw [hcat]
    exact List.mem_append_right _ (List.mem_singleton_self _)
  have hkey : newPrimaryKey s.nextUuid ∈ s'.catalog.columns := by
    rw [hcat]
    exact List.mem_append_right _ (List.mem_singleton_self _)
  have hold : Tracked d s' refs := by
    refine h.mono hinv (by rw [hcat]) (fun t ht => ?_) fun c hc => ?_
    · rw [hcat]
      exact List.mem_append_left _ ht
    · rw [hcat]
      exact List.mem_append_left _ hc
  refine ⟨htable, hinv, hold.database, ?_, ?_⟩
  · intro entry hentry
    rcases List.mem_cons.mp hentry with rfl | hmem
    · exact ⟨htable, rfl, rfl⟩
    · exact hold.tables entry hmem
  · intro entry hentry
    rcases List.mem_cons.mp hentry with rfl | hmem
    · exact ⟨hkey, newTable s.nextUuid d name, htable, rfl, rfl, rfl⟩
    · exact hold.columns entry hmem

/-- `add_column`, and the entry of the column. -/
theorem Tracked.addColumn (h : Tracked d s refs) {table : DBTable} (htable : table ∈ s.catalog.tables)
    (hdatabase : table.tenantDatabase = d.id) {spec : ColumnSpec}
    (hcall : callService actor s (Databases.addColumn s.nextUuid organization table spec) = .ok s') :
    table ∈ s'.catalog.tables ∧ Tracked d s'
      { refs with columns := ((table.name, spec.name), newColumn s.nextUuid table spec) :: refs.columns } := by
  have hr : SchemaRequest.Resolved s (.addColumn table.id spec)
      (Databases.addColumn s.nextUuid organization table spec) := .addColumn organization table htable rfl
  obtain ⟨hinv, plan, hplan, hwrite⟩ := inv_of_callService h.inv hr rfl hcall
  simp only [Databases.addColumn] at hplan
  split at hplan
  · cases hplan
  cases hplan
  obtain ⟨-, -, hcat⟩ := insertColumn_some hwrite
  have hcolumn : newColumn s.nextUuid table spec ∈ s'.catalog.columns := by
    rw [hcat]
    exact List.mem_append_right _ (List.mem_singleton_self _)
  have htable' : table ∈ s'.catalog.tables := by
    rw [hcat]
    exact htable
  have hold : Tracked d s' refs := by
    refine h.mono hinv (by rw [hcat]) (fun t ht => ?_) fun c hc => ?_
    · rw [hcat]
      exact ht
    · rw [hcat]
      exact List.mem_append_left _ hc
  refine ⟨htable', hinv, hold.database, hold.tables, ?_⟩
  intro entry hentry
  rcases List.mem_cons.mp hentry with rfl | hmem
  · exact ⟨hcolumn, table, htable', rfl, rfl, hdatabase⟩
  · exact hold.columns entry hmem

theorem Tracked.restoreColumns {table : DBTable} (hdatabase : table.tenantDatabase = d.id) {specs : List ColumnSpec} :
    ∀ {s : State} {refs : Refs}, Tracked d s refs → table ∈ s.catalog.tables →
      Exports.restoreColumns actor organization table specs (s, refs) = .ok (s', refs') → Tracked d s' refs' := by
  induction specs with
  | nil =>
    intro s refs h _ hrestore
    obtain ⟨rfl, rfl⟩ := Prod.mk.inj (Except.ok.inj hrestore)
    exact h
  | cons spec specs ih =>
    intro s refs h htable hrestore
    rw [Exports.restoreColumns] at hrestore
    cases hcall : callService actor s (Databases.addColumn s.nextUuid organization table spec) with
    | error e =>
      rw [hcall] at hrestore
      cases hrestore
    | ok s₁ =>
      rw [hcall] at hrestore
      obtain ⟨htable', htracked⟩ := h.addColumn htable hdatabase hcall
      exact ih htracked htable' hrestore

theorem Tracked.restoreTables {tables : List TableData} :
    ∀ {s : State} {refs : Refs}, Tracked d s refs →
      Exports.restoreTables actor organization d tables (s, refs) = .ok (s', refs') → Tracked d s' refs' := by
  induction tables with
  | nil =>
    intro s refs h hrestore
    obtain ⟨rfl, rfl⟩ := Prod.mk.inj (Except.ok.inj hrestore)
    exact h
  | cons t tables ih =>
    intro s refs h hrestore
    rw [Exports.restoreTables] at hrestore
    cases hone : restoreTable actor organization d (s, refs) t with
    | error e =>
      rw [hone] at hrestore
      cases hrestore
    | ok x =>
      rw [hone] at hrestore
      obtain ⟨s₂, refs₂⟩ := x
      rw [restoreTable] at hone
      cases hcall : callService actor s (Databases.createTable s.nextUuid organization d t.name) with
      | error e =>
        rw [hcall] at hone
        cases hone
      | ok s₁ =>
        rw [hcall] at hone
        obtain ⟨htable, htracked⟩ := h.createTable hcall
        exact ih (htracked.restoreColumns rfl htable hone) hrestore

/-! ## Foreign keys -/

theorem Refs.table?_some {name : String} {t : DBTable} (h : refs.table? name = some t) : (name, t) ∈ refs.tables := by
  obtain ⟨entry, hfind, rfl⟩ := Option.map_eq_some_iff.mp h
  have hname := List.find?_some hfind
  rw [← eq_of_beq hname]
  exact List.mem_of_find?_eq_some hfind

theorem Refs.column?_some {table column : String} {c : DBColumn} (h : refs.column? table column = some c) :
    ((table, column), c) ∈ refs.columns := by
  obtain ⟨entry, hfind, rfl⟩ := Option.map_eq_some_iff.mp h
  have hname := List.find?_some hfind
  rw [← eq_of_beq hname]
  exact List.mem_of_find?_eq_some hfind

/-- The rows that an entry names are rows of the database, and the column is one of the table. -/
theorem Tracked.resolve (h : Tracked d s refs) {entry : String × ForeignKeyContent} {t rt : DBTable} {c rc : DBColumn}
    (hresolve : refs.resolve entry = some (t, c, rt, rc)) :
    t ∈ s.catalog.tables ∧ t.id = c.table ∧ c ∈ s.catalog.columns ∧ rt ∈ s.catalog.tables ∧ rc ∈ s.catalog.columns := by
  simp only [Refs.resolve, Option.bind_eq_bind, Option.bind_eq_some_iff] at hresolve
  obtain ⟨t', ht', c', hc', rt', hrt', rc', hrc', heq⟩ := hresolve
  cases heq
  obtain ⟨htmem, htname, htdb⟩ := h.tables _ (Refs.table?_some ht')
  obtain ⟨hcmem, u, hu, huid, huname, hudb⟩ := h.columns _ (Refs.column?_some hc')
  obtain ⟨hrtmem, -, -⟩ := h.tables _ (Refs.table?_some hrt')
  obtain ⟨hrcmem, -⟩ := h.columns _ (Refs.column?_some hrc')
  have hsame : u = t := by
    refine h.inv.wellFormed.tableNames u hu t htmem ?_
    show (⟨u.tenantDatabase⟩, u.name) = ((⟨t.tenantDatabase⟩, t.name) : SchemaName × String)
    rw [hudb, htdb, huname, htname]
  exact ⟨htmem, hsame ▸ huid, hcmem, hrtmem, hrcmem⟩

theorem Tracked.restoreForeignKeys {entries : List (String × ForeignKeyContent)} :
    ∀ {s : State}, Tracked d s refs →
      Exports.restoreForeignKeys actor organization refs entries s = .ok s' → Tracked d s' refs := by
  induction entries with
  | nil =>
    intro s h hrestore
    obtain rfl := Except.ok.inj hrestore
    exact h
  | cons entry entries ih =>
    intro s h hrestore
    rw [Exports.restoreForeignKeys] at hrestore
    cases hresolve : refs.resolve entry with
    | none =>
      rw [hresolve] at hrestore
      cases hrestore
    | some rows =>
      rw [hresolve] at hrestore
      obtain ⟨t, c, rt, rc⟩ := rows
      dsimp only at hrestore
      cases hcall : callService actor s (Databases.addForeignKey s.nextUuid s.catalog organization c t rt rc
          entry.2.onDelete) with
      | error e =>
        rw [hcall] at hrestore
        cases hrestore
      | ok s₁ =>
        rw [hcall] at hrestore
        obtain ⟨ht, htid, hc, hrt, hrc⟩ := h.resolve hresolve
        have hr : SchemaRequest.Resolved s (.addForeignKey t.id c.id rt.id rc.id entry.2.onDelete)
            (Databases.addForeignKey s.nextUuid s.catalog organization c t rt rc entry.2.onDelete) :=
          .addForeignKey organization c t rt rc hc rfl ht htid hrt rfl hrc rfl
        obtain ⟨hinv, plan, hplan, hwrite⟩ := inv_of_callService h.inv hr rfl hcall
        simp only [Databases.addForeignKey] at hplan
        split at hplan
        · cases hplan
        cases hplan
        obtain ⟨-, hcat⟩ := insertForeignKey_some hwrite
        refine ih (h.mono hinv (by rw [hcat]) (fun t ht => ?_) fun c hc => ?_) hrestore
        · rw [hcat]
          exact ht
        · rw [hcat]
          exact hc

/-! ## Restores -/

theorem inv_of_restoreTenantDatabase (hs : Inv s) {loads : TableData → Bool} {project : Project} {name : String}
    {tables : List TableData} (h : restoreTenantDatabase actor loads project name tables s = .ok s') : Inv s' := by
  unfold restoreTenantDatabase at h
  cases hcall : callService actor s (createTenantDatabase s.nextUuid project name) with
  | error e =>
    rw [hcall] at h
    cases h
  | ok s₁ =>
    rw [hcall] at h
    have hr : SchemaRequest.Resolved s (.createTenantDatabase project.id name)
        (createTenantDatabase s.nextUuid project name) := .createTenantDatabase project
    obtain ⟨hinv, plan, hplan, hwrite⟩ := inv_of_callService hs hr rfl hcall
    simp only [createTenantDatabase] at hplan
    split at hplan
    · cases hplan
    cases hplan
    obtain hcat := insertDatabase_some hwrite
    have htracked : Tracked ⟨s.nextUuid, project.id, name⟩ s₁ .empty := by
      refine ⟨hinv, ?_, ?_, ?_⟩
      · rw [hcat]
        exact List.mem_append_right _ (List.mem_singleton_self _)
      · simp [Refs.empty]
      · simp [Refs.empty]
    cases htables : restoreTables actor project.organization ⟨s.nextUuid, project.id, name⟩ tables (s₁, .empty) with
    | error e => simp [bind, Except.bind, htables] at h
    | ok x =>
      obtain ⟨s₂, refs⟩ := x
      cases hkeys : restoreForeignKeys actor project.organization refs (keyEntries tables) s₂ with
      | error e => simp [bind, Except.bind, htables, hkeys] at h
      | ok s₃ =>
        cases hrows : restoreRowsOf loads tables with
        | error e => simp [bind, Except.bind, htables, hkeys, hrows] at h
        | ok u =>
          simp only [bind, Except.bind, htables, hkeys, hrows, pure, Except.pure, Except.ok.injEq] at h
          subst h
          exact ((htracked.restoreTables htables).restoreForeignKeys hkeys).inv

theorem inv_of_restoreEntries {loads : TableData → Bool} {entries : List DatabaseEntry} :
    ∀ {s : State}, Inv s → restoreEntries actor loads entries s = .ok s' → Inv s' := by
  induction entries with
  | nil =>
    intro s hs h
    obtain rfl := Except.ok.inj h
    exact hs
  | cons entry entries ih =>
    intro s hs h
    rw [restoreEntries] at h
    cases hone : restoreTenantDatabase actor loads entry.project entry.name entry.tables s with
    | error e =>
      rw [hone] at h
      cases h
    | ok s₁ =>
      rw [hone] at h
      exact ih (inv_of_restoreTenantDatabase hs hone) h

theorem inv_schemaStep (hs : Inv s) {e : SchemaEvent} (hp : PermittedEvent s e) : Inv (schemaStep s e) := by
  cases e with
  | act a => exact inv_step_of_permitted hs hp
  | restore actor loads entries =>
    unfold schemaStep
    dsimp only
    cases h : restoreEntries actor loads entries s with
    | error e => exact hs
    | ok s' => exact inv_of_restoreEntries hs h

/-- A package with a table that refers to itself. -/
def ownPackage : List DatabaseEntry :=
  [⟨⟨5, 1⟩, "copy", [⟨"notes", [{ name := "parent", dataType := .uuid }], [⟨"parent", "notes", "id", .cascade⟩], []⟩]⟩]

end Exports
