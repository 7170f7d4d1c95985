import IntraCloud.Exports.Proofs.AcceptanceProofs
import IntraCloud.Exports.Proofs.SchemaKeysProofs

/-!
# Which catalogs come back from a package

The tenant databases of an organization are restored one after another. What is restored later leaves the rows of
the earlier ones as they are.
-/

namespace Exports

open Audit Databases Organizations Permissions Python Relational Transition

/-! ## Reading `schema.json` -/

theorem dataType?_value (dataType : DataType) : dataType? dataType.value.toList = some dataType := by
  cases dataType <;> rfl

theorem onDelete?_value (onDelete : OnDelete) : onDelete? (onDeleteValue onDelete).toList = some onDelete := by
  cases onDelete <;> rfl

theorem number?_jsonNat (n : Option Nat) : number? (Json.sorted (jsonNat n)) = some n := by
  cases n with
  | none => rfl
  | some n =>
    show (if (0 : Int) ≤ n then some (some (n : Int).toNat) else none) = some (some n)
    rw [if_pos (Int.natCast_nonneg n), Int.toNat_natCast]

theorem field_columnDict (c : DBColumn) (key : String) :
    (Json.sorted (columnDict c)).field key = ((columnDict c).field key).map Json.sorted := by
  have hkeys : ["name".toList, "data_type".toList, "max_length".toList, "precision".toList,
      "scale".toList, "is_nullable".toList, "is_unique".toList, "default_value".toList].Nodup := by decide
  refine field_sorted ?_ key
  exact hkeys

/-- The entry of a column reads back. -/
theorem columnSpec?_columnDict {c : DBColumn} (h : Readable c) :
    columnSpec? (Json.sorted (columnDict c)) = some (columnSpec c) := by
  have hname : strField (Json.sorted (columnDict c)) "name" = some c.name.toList := by
    rw [strField, field_columnDict]
    rfl
  have htype : (strField (Json.sorted (columnDict c)) "data_type").bind dataType? = some c.dataType := by
    rw [strField, field_columnDict]
    exact dataType?_value c.dataType
  have hlength : ((Json.sorted (columnDict c)).field "max_length").bind number? = some c.maxLength := by
    rw [field_columnDict]
    exact number?_jsonNat c.maxLength
  have hprecision : ((Json.sorted (columnDict c)).field "precision").bind number? = some c.precision := by
    rw [field_columnDict]
    exact number?_jsonNat c.precision
  have hscale : ((Json.sorted (columnDict c)).field "scale").bind number? = some c.scale := by
    rw [field_columnDict]
    exact number?_jsonNat c.scale
  have hnullable : ((Json.sorted (columnDict c)).field "is_nullable").bind flag? = some c.isNullable := by
    rw [field_columnDict]
    rfl
  have hunique : ((Json.sorted (columnDict c)).field "is_unique").bind flag? = some c.isUnique := by
    rw [field_columnDict]
    rfl
  have hdefault : (Json.sorted (columnDict c)).field "default_value" =
      some (Json.sorted (defaultJson c.defaultValue)) := by
    rw [field_columnDict]
    rfl
  unfold columnSpec?
  simp only [hname, htype, hlength, hprecision, hscale, hnullable, hunique, hdefault, h.default,
    Option.bind_eq_bind, Option.bind_some, Option.pure_def, String.ofList_toList]
  rfl

/-- So does that of a foreign key. -/
theorem foreignKeyContent?_foreignKeyDict (fk : ForeignKeyContent) :
    foreignKeyContent? (Json.sorted (foreignKeyDict fk)) = some fk := by
  have hkeys : ["column".toList, "references_table".toList, "references_column".toList,
      "on_delete".toList].Nodup := by decide
  have hfield : ∀ key, (Json.sorted (foreignKeyDict fk)).field key =
      ((foreignKeyDict fk).field key).map Json.sorted := by
    intro key
    refine field_sorted ?_ key
    exact hkeys
  have hcolumn : strField (Json.sorted (foreignKeyDict fk)) "column" = some fk.column.toList := by
    rw [strField, hfield]
    rfl
  have htable : strField (Json.sorted (foreignKeyDict fk)) "references_table" = some fk.referencesTable.toList := by
    rw [strField, hfield]
    rfl
  have hreferences : strField (Json.sorted (foreignKeyDict fk)) "references_column" =
      some fk.referencesColumn.toList := by
    rw [strField, hfield]
    rfl
  have honDelete : (strField (Json.sorted (foreignKeyDict fk)) "on_delete").bind onDelete? = some fk.onDelete := by
    rw [strField, hfield]
    exact onDelete?_value fk.onDelete
  unfold foreignKeyContent?
  simp only [hcolumn, htable, hreferences, honDelete, Option.bind_eq_bind, Option.bind_some, Option.pure_def,
    String.ofList_toList]

/-- The entries of a list that read back. -/
theorem entries?_sorted {α β : Type} {item? : PyJson → Option β} {write : α → PyJson} {read : α → β}
    {as : List α} {ms : List (List Char × PyJson)} {key : String} (hnodup : (ms.map (·.1)).Nodup)
    (hmember : Json.member? key.toList ms = some (.list (as.map write)))
    (hentries : ∀ a ∈ as, item? (Json.sorted (write a)) = some (read a)) :
    entries? item? (Json.sorted (.dict ms)) key = some (as.map read) := by
  have hmap : ∀ as : List α, (∀ a ∈ as, item? (Json.sorted (write a)) = some (read a)) →
      ((as.map write).map Json.sorted).mapM item? = some (as.map read) := by
    intro as
    induction as with
    | nil => exact fun _ => rfl
    | cons a as ih =>
      intro h
      obtain ⟨ha, has⟩ := List.forall_mem_cons.mp h
      rw [List.map_cons, List.map_cons, List.mapM_cons, ha, ih has]
      rfl
  rw [entries?, field_sorted hnodup, hmember, Option.map_some, Json.sorted_list]
  exact hmap as hentries

theorem tableData?_tableDict {d : DatabaseContent} {t : TableContent} (h : ∀ c ∈ t.columns, Readable c) :
    tableData? (Json.sorted (tableDict d t)) = some (tableData d t) := by
  have hkeys : ["id".toList, "name".toList, "columns".toList, "foreign_keys".toList,
      "rows_path".toList].Nodup := by decide
  have hname : strField (Json.sorted (tableDict d t)) "name" = some t.name.toList := by
    refine str_field_sorted ?_ rfl
    exact hkeys
  have hcolumns : entries? columnSpec? (Json.sorted (tableDict d t)) "columns" = some (t.columns.map columnSpec) := by
    refine entries?_sorted ?_ rfl fun c hc => columnSpec?_columnDict (h c hc)
    exact hkeys
  have hforeign : entries? foreignKeyContent? (Json.sorted (tableDict d t)) "foreign_keys" =
      some (t.foreignKeys.map id) := by
    refine entries?_sorted ?_ rfl fun fk _ => foreignKeyContent?_foreignKeyDict fk
    exact hkeys
  have hrows : strField (Json.sorted (tableDict d t)) "rows_path" = some (rowsArcname d t) := str_rowsPath d t
  unfold tableData?
  simp only [hname, hcolumns, hforeign, hrows, Option.bind_eq_bind, Option.bind_some, Option.pure_def,
    String.ofList_toList, List.map_id]
  rfl

/-- A restore gets the tables of `schema.json` as they were written. -/
theorem readSchema_schemaBytes {d : DatabaseContent} (h : ∀ t ∈ d.tables, ∀ c ∈ t.columns, Readable c) :
    readSchema (schemaBytes d) = some (d.name, d.tables.map (tableData d)) := by
  have hkeys : ["name".toList, "tables".toList].Nodup := by decide
  have hload := loadBytes_schemaBytes (fun t ht c hc => (h t ht c hc).numbers) fun t ht c hc => (h t ht c hc).writable
  have hname : strField (Json.sorted (schemaDict d)) "name" = some d.name.toList := by
    refine str_field_sorted ?_ rfl
    exact hkeys
  have htables : entries? tableData? (Json.sorted (schemaDict d)) "tables" = some (d.tables.map (tableData d)) := by
    refine entries?_sorted ?_ rfl fun t ht => tableData?_tableDict (h t ht)
    exact hkeys
  unfold readSchema
  simp only [hload, hname, htables, Option.bind_eq_bind, Option.bind_some, Option.pure_def, String.ofList_toList]

/-- The package of a tenant database gives its tables to the restore. -/
theorem readSchema_databaseContent {cat : Catalog} {records : DBTable → List Csv.Record} {d : TenantDatabase}
    (h : ∀ c ∈ cat.columns, Readable c) :
    readSchema (schemaBytes (databaseContent cat records d)) = some (d.name, schemaTables cat records d) := by
  refine readSchema_schemaBytes fun t ht c hc => ?_
  obtain ⟨t', -, rfl⟩ := List.mem_map.mp ht
  exact h c (List.mem_filter.mp hc).1

/-- The default of a column of tags. -/
def tags : PyJson := .dict [("a".toList, .list [.int 1, .bool true])]

/-- A table of products with defaults, each of which may be part of another one. -/
def products : Catalog :=
  (run Databases.step emptyProject
    [ask (.createTenantDatabase 5 "crm"), ask (.createTable 100 "products"),
      ask (.addColumn 102 { name := "label", dataType := .varchar, maxLength := some 40, isNullable := false,
                            defaultValue := some (.str "new") }),
      ask (.addColumn 102 { name := "price", dataType := .decimal, precision := some 8, scale := some 2,
                            defaultValue := some (.int 0) }),
      ask (.addColumn 102 { name := "tags", dataType := .json,
                            defaultValue := some (.compound (String.ofList (Json.dumps tags))) }),
      ask (.addColumn 102 { name := "part_of", dataType := .uuid, isUnique := true }),
      ask (.addForeignKey 102 110 102 103 .setNull)]).catalog

theorem readable_products : ∀ c ∈ products.columns, Readable c := by
  have hvalues : ∀ c : DBColumn, Catalog.numbersFit c = true → (Json.Writable (defaultJson c.defaultValue) ∧
      readDefault (Json.sorted (defaultJson c.defaultValue)) = c.defaultValue) → Readable c :=
    fun _ hnumbers h => ⟨hnumbers, h.1, h.2⟩
  have hnumbers : ∀ c ∈ products.columns, Catalog.numbersFit c = true := by decide
  have hdefaults : ∀ c ∈ products.columns, c.defaultValue ∈ [none, some (.str "new"), some (.int 0),
      some (.compound (String.ofList (Json.dumps tags)))] := by decide
  have hzero : (natText 0).length ≤ maxStrDigits := by decide
  have hone : (natText 1).length ≤ maxStrDigits := by decide
  have hwritable : Json.Writable tags := ⟨List.nodup_singleton _, ⟨hone, trivial, trivial⟩, trivial⟩
  have htags : defaultJson (some (.compound (String.ofList (Json.dumps tags)))) = tags := by
    show (Json.loadsWith (some REPLACEMENT) (String.ofList (Json.dumps tags)).toList).getD .null = tags
    rw [String.toList_ofList, Json.dumps, Json.loadsWith_text _ none hwritable]
    rfl
  have hsorted : Json.sorted tags = tags := by
    simp only [tags, Json.sorted, Json.sortedMembers, Json.sortedItems, List.mergeSort_singleton]
  refine fun c hc => hvalues c (hnumbers c hc) ?_
  have hdefault := hdefaults c hc
  generalize c.defaultValue = value at hdefault ⊢
  simp only [List.mem_cons, List.not_mem_nil, or_false] at hdefault
  rcases hdefault with rfl | rfl | rfl | rfl
  · exact ⟨trivial, rfl⟩
  · exact ⟨trivial, rfl⟩
  · exact ⟨hzero, rfl⟩
  · rw [htags]
    refine ⟨hwritable, ?_⟩
    rw [hsorted]
    rfl

theorem readSchema_databaseContent_products :
    readSchema (schemaBytes (databaseContent products (fun _ => []) crm)) =
      some ("crm", schemaTables products (fun _ => []) crm) :=
  readSchema_databaseContent readable_products

/-! ## One database -/

/-- A state that a tenant database can be restored in. The ids of all schemas have been drawn. -/
structure Ready (actor organization : Uuid) (s : State) : Prop where
  sound : Databases.Sound s
  schemas : ∀ schema ∈ s.tenant.schemas, schema.database < s.nextUuid
  mayBuild : MayBuild s actor organization

section One

variable {actor organization : Uuid} {s s' : State} {project : Project} {name : String}

theorem Ready.createTenantDatabase (h : Ready actor organization s)
    (horganization : project.organization = organization)
    (hname : name ≠ "" ∧ name.length ≤ 200)
    (hnew : ∀ x ∈ s.catalog.databases, (x.project, x.name) ≠ (project.id, name)) :
    ∃ s₁, callService actor s (Databases.createTenantDatabase s.nextUuid project name) = .ok s₁ ∧
      Made actor organization s ⟨s.nextUuid, project.id, name⟩ [] s₁ .empty := by
  have hr : SchemaRequest.Resolved s (.createTenantDatabase project.id name)
      (Databases.createTenantDatabase s.nextUuid project name) := .createTenantDatabase project
  have hplan : (Databases.createTenantDatabase s.nextUuid project name).plan =
      .ok (.createTenantDatabase ⟨s.nextUuid, project.id, name⟩) := by
    have hlength : ¬ (name = "" ∨ 200 < name.length) := by
      rintro (hempty | hlong)
      · exact hname.1 hempty
      · exact absurd hname.2 (Nat.not_le.mpr hlong)
    simp [Databases.createTenantDatabase, hlength]
  have hschema : (⟨s.nextUuid⟩ : SchemaName) ∉ s.tenant.schemas := fun hin => Nat.lt_irrefl _ (h.schemas _ hin)
  have htables : ∀ x ∈ s.tenant.tables, x.1 ≠ ⟨s.nextUuid⟩ := by
    intro x hx hself
    have hin := h.sound.valid.table_schema x hx
    rw [hself] at hin
    exact hschema hin
  have hcolumns : ∀ x ∈ s.tenant.columns, x.schema ≠ ⟨s.nextUuid⟩ :=
    fun x hx hself => htables _ (h.sound.valid.column_table x hx) hself
  have hexec := exec_createSchema_eq hschema
  have hwrite := insertDatabase_eq (d := ⟨s.nextUuid, project.id, name⟩) hnew
  have hfits := hr.done_fits actor ""
  have hcreate : hasPermission s.tables s.now actor "database.create" project.organization none = true := by
    rw [horganization]
    exact h.mayBuild.create
  obtain ⟨s₁, hcall, hcalled, hten, hcat⟩ := callService_eq actor hcreate hplan hexec hwrite hfits
  refine ⟨s₁, hcall, ?_⟩
  constructor
  · exact hcalled.sound h.sound hr hplan
  · exact hcalled.mayBuild h.mayBuild
  · rw [hcat]
  · rw [hcat, List.map_nil, List.append_nil]
  · rw [hcat, List.flatMap_nil, List.append_nil]
  · rw [hcat]
  · exact List.forall_mem_nil _
  · exact List.nodup_nil
  · rw [hten]
  · intro name'
    rw [hten]
    refine iff_of_false (fun hin => htables _ hin rfl) ?_
    rintro ⟨p, hp, -⟩
    cases hp
  · intro c hc
    rw [hten]
    refine iff_of_false (fun hin => hcolumns c hin hc) ?_
    rintro ⟨p, hp, -⟩
    cases hp
  · rw [hten]
    intro fk hfk hself
    obtain ⟨c, hc, hat, -⟩ := Tenant.refersTo_iff.mp (h.sound.valid.refersTo fk hfk)
    exact hcolumns c hc (hat.1.trans hself)
  · rfl
  · rfl

variable {cat : Catalog} {fresh : Uuid} {d : TenantDatabase} {records : DBTable → List Python.Csv.Record}
  {loads : TableData → Bool}

variable (d records) in
theorem closed_schemaTables (hw : WellFormed cat fresh) :
    (tableDependencies (id : TableData → TableData)).Closed (schemaTables cat records d) := by
  intro t ht n hn
  rw [schemaTables_eq] at ht
  obtain ⟨u, hu, rfl⟩ := List.mem_map.mp ht
  obtain ⟨hn, -⟩ := List.mem_filter.mp hn
  obtain ⟨content, hcontent, rfl⟩ := List.mem_map.mp hn
  obtain ⟨fk, hfk, rfl⟩ := List.mem_map.mp hcontent
  obtain ⟨c, rt, rc, hrows⟩ := exists_keyRows hw hu hfk
  have hname : (foreignKeyContent cat fk).referencesTable = rt.name := by
    rw [hrows.content]
  rw [hname]
  show rt.name ∈ (schemaTables cat records d).map (·.name)
  rw [names_schemaTables]
  exact List.mem_map_of_mem hrows.refTable_mem

theorem restoreRowsOf_ok_iff (hw : WellFormed cat fresh) (hdistinct : cat.Distinct) :
    restoreRowsOf loads (schemaTables cat records d) = .ok () ↔
      KeysAcyclic cat records d ∧ ∀ t ∈ schemaTables cat records d, loads t = true := by
  have hnames : ((schemaTables cat records d).map fun t => (id t).name).Nodup := by
    show ((schemaTables cat records d).map (·.name)).Nodup
    rw [names_schemaTables]
    exact nodup_tableNames hw hdistinct
  have hsome := topologicalOrder_isSome_iff hnames
  have hclosed := closed_schemaTables d records hw
  unfold restoreRowsOf
  cases horder : topologicalOrder id (schemaTables cat records d) with
  | none =>
    rw [horder] at hsome
    refine iff_of_false (fun hok => ?_) fun h => ?_
    · cases hok
    · have hnone := hsome.mpr ⟨hclosed, h.1⟩
      cases hnone
  | some order =>
    have hacyclic : KeysAcyclic cat records d := (hsome.mp (by rw [horder]; rfl)).2
    obtain ⟨-, hperm⟩ := topologicalOrder_some hnames horder
    rw [and_iff_right hacyclic]
    dsimp only
    have hall : order.all loads = true ↔ ∀ t ∈ schemaTables cat records d, loads t = true := by
      rw [List.all_eq_true]
      exact ⟨fun h t ht => h t (hperm.mem_iff.mpr ht), fun h t ht => h t (hperm.mem_iff.mp ht)⟩
    rw [← hall]
    by_cases hloads : order.all loads = true
    · simp [hloads]
    · simp [hloads]

/-- What has been made of a tenant database, at the end. -/
structure RestoredDatabase (actor organization : Uuid) (s : State) (project : Project) (cat : Catalog)
    (records : DBTable → List Python.Csv.Record) (d d' : TenantDatabase) (s' : State) : Prop where
  database : d' = ⟨s.nextUuid, project.id, d.name⟩
  made : ∃ placed refs s₁ keys, Made actor organization s d' placed s₁ refs ∧ Linked actor organization s₁ d' keys s' ∧
    List.Forall₂ (Corresponds cat) (tablesOf cat d) placed ∧
    List.Forall₂ (MadeKey placed) (keyEntries (schemaTables cat records d)) keys

variable (records loads) in
/-- The tables are made whatever the schema is; its foreign keys and rows decide whether the restore goes on. -/
theorem restoreTenantDatabase_cases (hw : WellFormed cat fresh) (hdistinct : cat.Distinct) (hb : Buildable cat)
    (hd : d ∈ cat.databases) (h : Ready actor organization s) (horganization : project.organization = organization)
    (hnew : ∀ x ∈ s.catalog.databases, (x.project, x.name) ≠ (project.id, d.name)) :
    (∀ s', restoreTenantDatabase actor loads project d.name (schemaTables cat records d) s = .ok s' →
      (KeysAcyclic cat records d ∧ ∀ t ∈ schemaTables cat records d, loads t = true) ∧
        ∃ d', RestoredDatabase actor organization s project cat records d d' s') ∧
    (KeysTied cat d → KeysAcyclic cat records d → (∀ t ∈ schemaTables cat records d, loads t = true) →
      ∃ s', restoreTenantDatabase actor loads project d.name (schemaTables cat records d) s = .ok s') := by
  obtain ⟨s₀, hcall, hmade₀⟩ := h.createTenantDatabase horganization (hb.databases d hd) hnew
  have haccepted : ∀ t ∈ schemaTables cat records d, AcceptedTable t := by
    rw [schemaTables_eq]
    intro t ht
    obtain ⟨u, hu, rfl⟩ := List.mem_map.mp ht
    exact acceptedTable hw hdistinct hb (mem_tablesOf.mp hu).1
  have hnames : (([] : List (DBTable × List DBColumn)).map (fun p => p.1.name) ++
      (schemaTables cat records d).map (·.name)).Nodup := by
    rw [names_schemaTables]
    exact nodup_tableNames hw hdistinct
  obtain ⟨s₁, refs, placed, htables, hmade, hforall⟩ := hmade₀.restoreTables_eq h.sound rfl haccepted hnames
  rw [List.nil_append] at hmade
  have hcorresponds : List.Forall₂ (Corresponds cat) (tablesOf cat d) placed := by
    rw [schemaTables_eq, List.forall₂_map_left_iff] at hforall
    rw [List.forall₂_iff_zip] at hforall ⊢
    refine ⟨hforall.1, fun hpair => ?_⟩
    exact corresponds_of_madeOf hb (mem_tablesOf.mp (List.of_mem_zip hpair).1).1 (hforall.2 hpair)
  have hstart := linked_nil hmade
  have hrestore : restoreTenantDatabase actor loads project d.name (schemaTables cat records d) s =
      restoreForeignKeys actor organization refs (keyEntries (schemaTables cat records d)) s₁ >>= fun s' =>
        restoreRowsOf loads (schemaTables cat records d) >>= fun _ => .ok s' := by
    unfold restoreTenantDatabase
    rw [hcall, horganization]
    simp only [bind, Except.bind, htables]
    rfl
  constructor
  · intro s' hok
    rw [hrestore] at hok
    cases hkeys : restoreForeignKeys actor organization refs (keyEntries (schemaTables cat records d)) s₁ with
    | error e =>
      rw [hkeys] at hok
      cases hok
    | ok s₂ =>
      rw [hkeys] at hok
      cases hrows : restoreRowsOf loads (schemaTables cat records d) with
      | error e =>
        simp only [bind, Except.bind, hrows] at hok
        cases hok
      | ok u =>
        simp only [bind, Except.bind, hrows] at hok
        obtain rfl := Except.ok.inj hok
        refine ⟨(restoreRowsOf_ok_iff hw hdistinct).mp hrows, ⟨s.nextUuid, project.id, d.name⟩, rfl, ?_⟩
        obtain ⟨keys, hkeysMade, hlinked⟩ := restoreForeignKeys_ok hmade hstart hkeys
        exact ⟨placed, refs, s₁, keys, hmade, hlinked, hcorresponds, hkeysMade⟩
  · intro htied hacyclic hloads
    have hlinkable : ∀ entry ∈ keyEntries (schemaTables cat records d), Linkable placed entry :=
      fun entry hentry => linkable_of_tied hw hb hcorresponds htied hentry
    obtain ⟨s', hkeys⟩ := restoreForeignKeys_eq h.sound rfl hmade hlinkable (nodup_keyEntries hw hdistinct) hstart
      fun _ _ _ _ _ _ _ k hk => absurd hk List.not_mem_nil
    refine ⟨s', ?_⟩
    rw [hrestore, hkeys]
    simp only [bind, Except.bind, (restoreRowsOf_ok_iff hw hdistinct).mpr ⟨hacyclic, hloads⟩]

end One

/-! ## What later calls leave alone -/

theorem mem_foreignKeysOf {cat : Catalog} {fresh id : Uuid} (hw : WellFormed cat fresh) {k : DBForeignKey} :
    k ∈ foreignKeysOf cat id ↔ k ∈ cat.foreignKeys ∧ ∃ c ∈ cat.columns, c.id = k.column ∧ c.table = id := by
  rw [foreignKeysOf, List.mem_filter, beq_iff_eq]
  refine and_congr_right fun hk => ?_
  constructor
  · intro htable
    obtain ⟨c, t, rt, rc, hres, -⟩ := hw.resolves k hk
    rw [← hres.column_id, tableOfColumn_eq hw hres.column_mem, Option.some.injEq] at htable
    exact ⟨c, hres.column_mem, hres.column_id, htable⟩
  · rintro ⟨c, hc, hid, rfl⟩
    rw [← hid, tableOfColumn_eq hw hc]

/-- The catalog has new rows only, those of new databases. -/
structure Grows (s s' : State) : Prop where
  next : s.nextUuid ≤ s'.nextUuid
  rows : ∃ tables columns keys, s'.catalog.tables = s.catalog.tables ++ tables ∧
    s'.catalog.columns = s.catalog.columns ++ columns ∧ s'.catalog.foreignKeys = s.catalog.foreignKeys ++ keys ∧
    (∀ t ∈ tables, s.nextUuid ≤ t.tenantDatabase) ∧ (∀ c ∈ columns, ∃ t ∈ tables, t.id = c.table) ∧
    ∀ k ∈ keys, ∃ c ∈ columns, c.id = k.column

theorem Grows.refl (s : State) : Grows s s := by
  refine ⟨Nat.le_refl _, [], [], [], ?_⟩
  simp

theorem Grows.trans {s s₁ s' : State} (h : Grows s s₁) (h' : Grows s₁ s') : Grows s s' := by
  obtain ⟨tables, columns, keys, htables, hcolumns, hkeys, hfresh, hown, hcolumn⟩ := h.rows
  obtain ⟨tables', columns', keys', htables', hcolumns', hkeys', hfresh', hown', hcolumn'⟩ := h'.rows
  refine ⟨Nat.le_trans h.next h'.next, tables ++ tables', columns ++ columns', keys ++ keys', ?_, ?_, ?_, ?_, ?_, ?_⟩
  · rw [htables', htables, List.append_assoc]
  · rw [hcolumns', hcolumns, List.append_assoc]
  · rw [hkeys', hkeys, List.append_assoc]
  · exact List.forall_mem_append.mpr ⟨hfresh, fun t ht => Nat.le_trans h.next (hfresh' t ht)⟩
  · refine List.forall_mem_append.mpr ⟨fun c hc => ?_, fun c hc => ?_⟩
    · obtain ⟨t, ht, hid⟩ := hown c hc
      exact ⟨t, List.mem_append_left _ ht, hid⟩
    · obtain ⟨t, ht, hid⟩ := hown' c hc
      exact ⟨t, List.mem_append_right _ ht, hid⟩
  · refine List.forall_mem_append.mpr ⟨fun k hk => ?_, fun k hk => ?_⟩
    · obtain ⟨c, hc, hid⟩ := hcolumn k hk
      exact ⟨c, List.mem_append_left _ hc, hid⟩
    · obtain ⟨c, hc, hid⟩ := hcolumn' k hk
      exact ⟨c, List.mem_append_right _ hc, hid⟩

section Later

variable {actor organization : Uuid} {s₀ s₁ s s' : State} {d' : TenantDatabase}
  {placed : List (DBTable × List DBColumn)} {refs : Refs} {keys : List DBForeignKey}

theorem Linked.database_mem (h : Made actor organization s₀ d' placed s₁ refs)
    (hl : Linked actor organization s₁ d' keys s) : d' ∈ s.catalog.databases := by
  rw [hl.databases, h.databases]
  exact List.mem_append_right _ (List.mem_singleton_self d')

theorem Linked.extends (hd : d'.id = s₀.nextUuid) (h : Made actor organization s₀ d' placed s₁ refs)
    (hl : Linked actor organization s₁ d' keys s) {entries : List (String × ForeignKeyContent)}
    (hkeys : List.Forall₂ (MadeKey placed) entries keys) : Grows s₀ s := by
  have hlt := hl.sound.wellFormed.databaseFresh d' (hl.database_mem h)
  rw [hd] at hlt
  refine ⟨Nat.le_of_lt hlt, placed.map (·.1), placed.flatMap (·.2), keys, ?_, ?_, ?_, ?_, ?_, ?_⟩
  · rw [hl.tables, h.tables]
  · rw [hl.columns, h.columns]
  · rw [hl.foreignKeys, h.foreignKeys]
  · intro t ht
    obtain ⟨p, hp, rfl⟩ := List.mem_map.mp ht
    rw [(h.own p hp).1, hd]
  · intro c hc
    obtain ⟨p, hp, hcp⟩ := List.mem_flatMap.mp hc
    exact ⟨p.1, List.mem_map_of_mem hp, ((h.own p hp).2 c hcp).symm⟩
  · intro k hk
    obtain ⟨entry, hentry⟩ := exists_zip_right hkeys hk
    obtain ⟨p, q, c, rc, hresolves, hcolumn, -⟩ := (List.forall₂_zip hkeys hentry).rows
    exact ⟨c, List.mem_flatMap.mpr ⟨p, hresolves.table_mem, hresolves.column_mem⟩, hcolumn.symm⟩

theorem Placement.extends (h : Made actor organization s₀ d' placed s₁ refs)
    (hl : Linked actor organization s₁ d' keys s) (hplacement : Placement s.catalog d' placed keys)
    (hs' : Databases.Sound s') (hext : Grows s s') : Placement s'.catalog d' placed keys := by
  obtain ⟨tables, columns, newKeys, htables, hcolumns, hkeys, hfresh, hown, hcolumn⟩ := hext.rows
  have hlt := hl.sound.wellFormed.databaseFresh d' (hl.database_mem h)
  have hother : ∀ p ∈ placed, ∀ t ∈ tables, t.id ≠ p.1.id := by
    intro p hp t ht hid
    have hin : p.1 ∈ s'.catalog.tables := by
      rw [htables, hl.tables]
      exact List.mem_append_left _ (h.mem_tables hp)
    have hin' : t ∈ s'.catalog.tables := by
      rw [htables]
      exact List.mem_append_right _ ht
    obtain rfl := hs'.wellFormed.tableIds t hin' p.1 hin hid
    have hle := hfresh p.1 ht
    rw [(h.own p hp).1] at hle
    exact Nat.lt_irrefl _ (Nat.lt_of_lt_of_le hlt hle)
  have hnone : ∀ p ∈ placed, columns.filter (·.table == p.1.id) = [] := by
    intro p hp
    rw [List.filter_eq_nil_iff]
    intro c hc hself
    obtain ⟨t, ht, hid⟩ := hown c hc
    exact hother p hp t ht (hid.trans (eq_of_beq hself))
  refine ⟨?_, fun p hp => ?_, fun p hp k => ?_⟩
  · have hempty : tables.filter (·.tenantDatabase == d'.id) = [] := by
      rw [List.filter_eq_nil_iff]
      intro t ht hself
      have hle := hfresh t ht
      rw [eq_of_beq hself] at hle
      exact Nat.lt_irrefl _ (Nat.lt_of_lt_of_le hlt hle)
    rw [tablesOf, htables, List.filter_append, hempty, List.append_nil]
    exact hplacement.tables
  · rw [Catalog.columnsOf, hcolumns, List.filter_append, hnone p hp, List.append_nil]
    exact hplacement.columns p hp
  · rw [← hplacement.foreignKeys p hp k, mem_foreignKeysOf hs'.wellFormed, mem_foreignKeysOf hl.sound.wellFormed, hkeys,
      hcolumns]
    constructor
    · rintro ⟨hk, c, hc, hid, htable⟩
      have hold : c ∈ s.catalog.columns := by
        refine (List.mem_append.mp hc).resolve_right fun hnew => ?_
        have hin : c ∈ columns.filter (·.table == p.1.id) := List.mem_filter.mpr ⟨hnew, beq_iff_eq.mpr htable⟩
        rw [hnone p hp] at hin
        cases hin
      refine ⟨(List.mem_append.mp hk).resolve_right fun hnew => ?_, c, hold, hid, htable⟩
      -- a new foreign key is of a new column
      obtain ⟨c', hc', hid'⟩ := hcolumn k hnew
      have hmem' : c' ∈ s'.catalog.columns := by
        rw [hcolumns]
        exact List.mem_append_right _ hc'
      have hmem : c ∈ s'.catalog.columns := by
        rw [hcolumns]
        exact hc
      obtain rfl := hs'.wellFormed.columnIds c' hmem' c hmem (hid'.trans hid.symm)
      have hin : c' ∈ columns.filter (·.table == p.1.id) := List.mem_filter.mpr ⟨hc', beq_iff_eq.mpr htable⟩
      rw [hnone p hp] at hin
      cases hin
    · rintro ⟨hk, c, hc, hid, htable⟩
      exact ⟨List.mem_append_left _ hk, c, List.mem_append_left _ hc, hid, htable⟩

end Later

/-! ## The ids of schemas -/

/-- Only `CREATE SCHEMA` makes a schema. -/
theorem exec_schemas {ten ten' : Tenant} {ddl : Ddl} (h : ten.exec ddl = some ten') :
    ∀ schema ∈ ten'.schemas, schema ∈ ten.schemas ∨ ddl = .createSchema schema := by
  cases ddl with
  | createSchema schema =>
    obtain ⟨-, rfl⟩ := Tenant.exec_createSchema h
    intro x hx
    rcases List.mem_append.mp hx with hold | hlast
    · exact .inl hold
    · rw [List.mem_singleton.mp hlast]
      exact .inr rfl
  | dropSchemaCascade schema =>
    obtain ⟨-, rfl⟩ := Tenant.exec_dropSchemaCascade.mp h
    exact fun x hx => .inl (List.mem_filter.mp hx).1
  | createTable schema table =>
    obtain ⟨-, -, rfl⟩ := Tenant.exec_createTable h
    exact fun x hx => .inl hx
  | dropTable schema table =>
    obtain ⟨-, rfl⟩ := Tenant.exec_dropTable.mp h
    exact fun x hx => .inl hx
  | addColumn c =>
    obtain ⟨-, -, rfl⟩ := Tenant.exec_addColumn h
    exact fun x hx => .inl hx
  | dropColumn schema table name =>
    obtain ⟨-, rfl⟩ := Tenant.exec_dropColumn.mp h
    exact fun x hx => .inl hx
  | addForeignKey fk =>
    obtain ⟨-, -, rfl⟩ := Tenant.exec_addForeignKey h
    exact fun x hx => .inl hx
  | dropConstraint schema table name =>
    obtain ⟨-, rfl⟩ := Tenant.exec_dropConstraint.mp h
    exact fun x hx => .inl hx

theorem compensating_ne_createSchema {plan : Plan} {ddl : Ddl} (h : plan.change.compensating = some ddl)
    (schema : SchemaName) : ddl ≠ .createSchema schema := by
  rintro rfl
  cases plan <;> cases h

theorem ddl_createSchema {s : State} {r : SchemaRequest} {svc : Service} (hr : r.Resolved s svc) {plan : Plan}
    (hplan : svc.plan = .ok plan) {schema : SchemaName} (hddl : plan.change.ddl = .createSchema schema) :
    schema = ⟨s.nextUuid⟩ := by
  cases hr with
  | createTenantDatabase project =>
    simp only [Databases.createTenantDatabase] at hplan
    split at hplan
    · cases hplan
    cases hplan
    exact (Ddl.createSchema.inj hddl).symm
  | createTable organization d hd hid =>
    simp only [Databases.createTable] at hplan
    split at hplan
    · cases hplan
    cases hplan
    cases hddl
  | addColumn organization t ht hid =>
    simp only [Databases.addColumn] at hplan
    split at hplan
    · cases hplan
    cases hplan
    cases hddl
  | addForeignKey organization c t rt rc hc hcid ht htid hrt hrtid hrc hrcid =>
    obtain rfl := addForeignKey_plan hplan
    cases hddl
  | deleteTable organization t ht hid =>
    cases hplan
    cases hddl
  | deleteTenantDatabase organization d hd hid =>
    cases hplan
    cases hddl

/-- The id of every schema has been drawn, also of those that the catalog does not have. -/
def SchemasDrawn (s : State) : Prop := ∀ schema ∈ s.tenant.schemas, schema.database < s.nextUuid

theorem schemasDrawn_step {s : State} (h : SchemasDrawn s) (a : Action) : SchemasDrawn (Databases.step s a) := by
  cases a with
  | administer memberships projects roleAssignments => exact h
  | advance seconds => exact h
  | request fault actor requestId r =>
    show SchemasDrawn (handle s fault actor requestId r).1
    unfold handle
    cases hr : r.resolve s actor with
    | error e => exact h
    | ok svc =>
      dsimp only
      rcases call_cases svc s fault actor requestId with
        ⟨-, hten, hnext, -⟩ | ⟨plan, ten', ⟨-, hplan, hexec, -⟩, hout⟩
      · intro schema hschema
        rw [hten] at hschema
        exact Nat.lt_of_lt_of_le (h schema hschema) hnext
      have hdrawn : ∀ schema ∈ ten'.schemas, schema.database < s.nextUuid + 2 := by
        intro schema hschema
        rcases exec_schemas hexec schema hschema with hold | hddl
        · exact Nat.lt_add_right 2 (h schema hold)
        · rw [ddl_createSchema (resolve_ok hr) hplan hddl]
          exact Nat.lt_add_of_pos_right (by decide)
      rcases hout with ⟨-, -, hten, hnext, -⟩ | ⟨-, -, hten, hnext, -⟩
      · intro schema hschema
        rw [hnext]
        rw [hten] at hschema
        cases hundo : plan.change.compensating.bind ten'.exec with
        | none =>
          rw [hundo] at hschema
          exact hdrawn schema hschema
        | some ten'' =>
          rw [hundo] at hschema
          obtain ⟨ddl, hcompensating, hundone⟩ := Option.bind_eq_some_iff.mp hundo
          rcases exec_schemas hundone schema hschema with hold | hddl
          · exact hdrawn schema hold
          · exact absurd hddl (compensating_ne_createSchema hcompensating schema)
      · intro schema hschema
        rw [hnext]
        rw [hten] at hschema
        exact hdrawn schema hschema

theorem ready_of_run {s : State} {as : List Action} (hcat : s.catalog = Catalog.empty) (hten : s.tenant = Tenant.empty)
    {actor organization : Uuid} (hmay : MayBuild (run Databases.step s as) actor organization) :
    Ready actor organization (run Databases.step s as) := by
  have hsound := (catalog_of_run (I := fun _ => True) trivial (fun _ _ _ => trivial) hcat hten as).1
  have hstart : SchemasDrawn s := by
    intro schema hschema
    rw [hten] at hschema
    cases hschema
  have hstep : ∀ s a, SchemasDrawn s → SchemasDrawn (Databases.step s a) := fun _ a h => schemasDrawn_step h a
  have hdrawn : SchemasDrawn (run Databases.step s as) := run_invariant_of_forall hstep hstart as
  exact ⟨hsound, hdrawn, hmay⟩

/-! ## All databases -/

section All

variable {actor organization : Uuid} {cat : Catalog} {fresh : Uuid} {records : DBTable → List Python.Csv.Record}
  {loads : TableData → Bool} {move : Uuid → Project}

/-- What a package keeps of a tenant database. -/
structure Keeps (cat : Catalog) (records : DBTable → List Python.Csv.Record) (loads : TableData → Bool)
    (d : TenantDatabase) : Prop where
  tied : KeysTied cat d
  acyclic : KeysAcyclic cat records d
  loads : ∀ t ∈ schemaTables cat records d, loads t = true

/-- The projects have no tenant databases of these names yet. -/
def NewNames (move : Uuid → Project) (databases : List TenantDatabase) (s : State) : Prop :=
  ∀ d ∈ databases, ∀ x ∈ s.catalog.databases, (x.project, x.name) ≠ ((move d.project).id, d.name)

variable {s s' : State} {project : Project} {d d' : TenantDatabase}

theorem RestoredDatabase.ready (h : RestoredDatabase actor organization s project cat records d d' s')
    (hs : Ready actor organization s) : Ready actor organization s' := by
  obtain ⟨placed, refs, s₁, keys, hmade, hlinked, -, -⟩ := h.made
  refine ⟨hlinked.sound, ?_, hlinked.mayBuild⟩
  have hlt := hlinked.sound.wellFormed.databaseFresh d' (hlinked.database_mem hmade)
  have hid : d'.id = s.nextUuid := by rw [h.database]
  rw [hlinked.schemas, hmade.schemas]
  refine forall_mem_concat (fun schema hschema => ?_) hlt
  rw [hid] at hlt
  exact Nat.lt_trans (hs.schemas schema hschema) hlt

theorem RestoredDatabase.databases (h : RestoredDatabase actor organization s project cat records d d' s') :
    s'.catalog.databases = s.catalog.databases ++ [d'] := by
  obtain ⟨placed, refs, s₁, keys, hmade, hlinked, -, -⟩ := h.made
  rw [hlinked.databases, hmade.databases]

theorem RestoredDatabase.extends (h : RestoredDatabase actor organization s project cat records d d' s') :
    Grows s s' := by
  obtain ⟨placed, refs, s₁, keys, hmade, hlinked, -, hkeys⟩ := h.made
  exact hlinked.extends (by rw [h.database]) hmade hkeys

/-- Also after more databases were restored. -/
theorem RestoredDatabase.sameSchema_iff (hw : WellFormed cat fresh) (hdistinct : cat.Distinct)
    (h : RestoredDatabase actor organization s project cat records d d' s') (hs : Ready actor organization s)
    {s'' : State} (hs'' : Databases.Sound s'') (hext : Grows s' s'') :
    SameSchema cat s''.catalog d d' ↔ KeysTied cat d := by
  obtain ⟨placed, refs, s₁, keys, hmade, hlinked, hcorresponds, hkeys⟩ := h.made
  have hid : d'.id = s.nextUuid := by rw [h.database]
  have hplacement := hlinked.placement hs.sound hid hmade
  exact Exports.sameSchema_iff hw hdistinct hmade (by rw [h.database]) hcorresponds hkeys
    (hplacement.extends hmade hlinked hs'' hext)

theorem NewNames.tail {databases : List TenantDatabase} (h : NewNames move (d :: databases) s)
    (hdatabases : s'.catalog.databases = s.catalog.databases ++ [d'])
    (hd' : d'.project = (move d.project).id ∧ d'.name = d.name)
    (hothers : ∀ e ∈ databases, ((move d.project).id, d.name) ≠ ((move e.project).id, e.name)) :
    NewNames move databases s' := by
  intro e he
  rw [hdatabases]
  refine forall_mem_concat (h e (List.mem_cons_of_mem _ he)) ?_
  rw [hd'.1, hd'.2]
  exact hothers e he

theorem restoreDatabases_ok (hw : WellFormed cat fresh) (hdistinct : cat.Distinct) (hb : Buildable cat)
    {databases : List TenantDatabase} (hsub : ∀ d ∈ databases, d ∈ cat.databases)
    (hothers : databases.Pairwise fun d e => ((move d.project).id, d.name) ≠ ((move e.project).id, e.name))
    (horganization : ∀ d ∈ databases, (move d.project).organization = organization) :
    ∀ {s : State}, Ready actor organization s → NewNames move databases s →
      restoreDatabases actor loads move cat records databases s = .ok s' →
      Databases.Sound s' ∧ Grows s s' ∧ ∃ made, s'.catalog.databases = s.catalog.databases ++ made ∧
        List.Forall₂ (fun d d' => d'.project = (move d.project).id ∧ (SameSchema cat s'.catalog d d' ↔ KeysTied cat d) ∧
          KeysAcyclic cat records d ∧ ∀ t ∈ schemaTables cat records d, loads t = true) databases made := by
  induction databases with
  | nil =>
    intro s hs _ hrestored
    obtain rfl := Except.ok.inj hrestored
    exact ⟨hs.sound, .refl _, [], (List.append_nil _).symm, .nil⟩
  | cons d databases ih =>
    intro s hs hnew hrestored
    rw [List.forall_mem_cons] at hsub horganization
    rw [List.pairwise_cons] at hothers
    rw [restoreDatabases] at hrestored
    have hcases := (restoreTenantDatabase_cases records loads hw hdistinct hb hsub.1 hs
      horganization.1 (hnew d (List.mem_cons_self ..))).1
    cases hone : restoreTenantDatabase actor loads (move d.project) d.name (schemaTables cat records d) s with
    | error e =>
      rw [hone] at hrestored
      cases hrestored
    | ok s₁ =>
      rw [hone] at hrestored
      obtain ⟨⟨hacyclic, hloads⟩, d', hd'⟩ := hcases s₁ hone
      have hproject : d'.project = (move d.project).id ∧ d'.name = d.name := by
        rw [hd'.database]
        exact ⟨rfl, rfl⟩
      have hnames := hnew.tail hd'.databases hproject hothers.1
      obtain ⟨hsound, hext, made, hmade, hforall⟩ := ih hsub.2 hothers.2 horganization.2 (hd'.ready hs) hnames hrestored
      refine ⟨hsound, hd'.extends.trans hext, d' :: made, ?_, .cons ⟨hproject.1, ?_, hacyclic, hloads⟩ hforall⟩
      · rw [hmade, hd'.databases, List.append_assoc]
        rfl
      · exact hd'.sameSchema_iff hw hdistinct hs hsound hext

theorem restoreDatabases_eq (hw : WellFormed cat fresh) (hdistinct : cat.Distinct) (hb : Buildable cat)
    {databases : List TenantDatabase} (hsub : ∀ d ∈ databases, d ∈ cat.databases)
    (hothers : databases.Pairwise fun d e => ((move d.project).id, d.name) ≠ ((move e.project).id, e.name))
    (horganization : ∀ d ∈ databases, (move d.project).organization = organization)
    (hkeeps : ∀ d ∈ databases, Keeps cat records loads d) :
    ∀ {s : State}, Ready actor organization s → NewNames move databases s →
      ∃ s', restoreDatabases actor loads move cat records databases s = .ok s' := by
  induction databases with
  | nil =>
    intro s _ _
    exact ⟨s, rfl⟩
  | cons d databases ih =>
    intro s hs hnew
    rw [List.forall_mem_cons] at hsub horganization hkeeps
    rw [List.pairwise_cons] at hothers
    obtain ⟨hinv, hforward⟩ := restoreTenantDatabase_cases records loads hw hdistinct hb hsub.1
      hs horganization.1 (hnew d (List.mem_cons_self ..))
    obtain ⟨s₁, hone⟩ := hforward hkeeps.1.tied hkeeps.1.acyclic hkeeps.1.loads
    obtain ⟨-, d', hd'⟩ := hinv s₁ hone
    have hproject : d'.project = (move d.project).id ∧ d'.name = d.name := by
      rw [hd'.database]
      exact ⟨rfl, rfl⟩
    have hnames := hnew.tail hd'.databases hproject hothers.1
    obtain ⟨s', hrest⟩ := ih hsub.2 hothers.2 horganization.2 hkeeps.2 (hd'.ready hs) hnames
    refine ⟨s', ?_⟩
    rw [restoreDatabases, hone]
    exact hrest

/-- No other tenant databases are in the new projects. -/
theorem madeDatabases_eq {databases made : List TenantDatabase}
    (hnew : ∀ x ∈ s.catalog.databases, ∀ d ∈ databases, x.project ≠ (move d.project).id)
    (hmade : s'.catalog.databases = s.catalog.databases ++ made)
    (hforall : List.Forall₂ (fun d d' => d'.project = (move d.project).id) databases made) :
    madeDatabases s'.catalog move databases = made := by
  have hold : s.catalog.databases.filter (fun d' => databases.any fun d => (move d.project).id == d'.project) = [] := by
    rw [List.filter_eq_nil_iff]
    intro x hx hany
    obtain ⟨d, hd, heq⟩ := List.any_eq_true.mp hany
    exact hnew x hx d hd (eq_of_beq heq).symm
  have hall : made.filter (fun d' => databases.any fun d => (move d.project).id == d'.project) = made := by
    rw [List.filter_eq_self]
    intro d' hd'
    obtain ⟨d, hpair⟩ := exists_zip_right hforall hd'
    have hproject := List.forall₂_zip hforall hpair
    exact List.any_eq_true.mpr ⟨d, (List.of_mem_zip hpair).1, beq_iff_eq.mpr hproject.symm⟩
  rw [madeDatabases, hmade, List.filter_append, hold, hall, List.nil_append]

end All

/-- The tenant databases of an organization come back with their schemas exactly if in each of them every foreign key
references a column of its referenced table, no table refers to itself by way of others, and all rows get in. -/
theorem catalogRoundTrips_iff {cat : Catalog} (hcat : Reachable cat) (databases : List TenantDatabase)
    (hsub : ∀ d ∈ databases, d ∈ cat.databases) (hnodup : databases.Nodup)
    (records : DBTable → List Python.Csv.Record) (actor organization : Uuid) (loads : TableData → Bool)
    (move : Uuid → Project)
    (hmove : ∀ d ∈ databases, ∀ e ∈ databases, (move d.project).id = (move e.project).id → d.project = e.project)
    (horganization : ∀ d ∈ databases, (move d.project).organization = organization) (s : State) (as : List Action)
    (hcatalog : s.catalog = Catalog.empty) (hten : s.tenant = Tenant.empty)
    (hmay : MayBuild (run Databases.step s as) actor organization)
    (hnew : ∀ x ∈ (run Databases.step s as).catalog.databases, ∀ d ∈ databases, x.project ≠ (move d.project).id) :
    CatalogRoundTrips cat databases records actor loads move (run Databases.step s as) ↔
      ∀ d ∈ databases, KeysTied cat d ∧ KeysAcyclic cat records d ∧
        ∀ t ∈ schemaTables cat records d, loads t = true := by
  obtain ⟨fresh, hw, hdistinct, hb⟩ := hcat.buildable
  have hready := ready_of_run hcatalog hten hmay
  have hnames : NewNames move databases (run Databases.step s as) := by
    intro d hd x hx heq
    exact hnew x hx d hd (Prod.mk.inj heq).1
  have hothers : databases.Pairwise fun d e => ((move d.project).id, d.name) ≠ ((move e.project).id, e.name) := by
    refine hnodup.imp_of_mem fun {d e} hd he hne heq => hne ?_
    obtain ⟨hproject, hname⟩ := Prod.mk.inj heq
    refine hb.databaseNames d (hsub d hd) e (hsub e he) ?_
    show (d.project, d.name) = (e.project, e.name)
    rw [hmove d hd e he hproject, hname]
  constructor
  · rintro ⟨s', hrestored, hsame⟩
    obtain ⟨-, -, made, hmade, hforall⟩ := restoreDatabases_ok hw hdistinct hb hsub hothers horganization hready hnames
      hrestored
    have hdatabases := madeDatabases_eq hnew hmade (hforall.imp fun _ _ h => h.1)
    rw [hdatabases] at hsame
    intro d hd
    obtain ⟨d', hpair⟩ := exists_zip_left hforall hd
    obtain ⟨-, hiff, hacyclic, hloads⟩ := List.forall₂_zip hforall hpair
    exact ⟨hiff.mp (List.forall₂_zip hsame hpair).2, hacyclic, hloads⟩
  · intro hkeeps
    obtain ⟨s', hrestored⟩ := restoreDatabases_eq hw hdistinct hb hsub hothers horganization
      (fun d hd => ⟨(hkeeps d hd).1, (hkeeps d hd).2.1, (hkeeps d hd).2.2⟩) hready hnames
    refine ⟨s', hrestored, ?_⟩
    obtain ⟨-, -, made, hmade, hforall⟩ := restoreDatabases_ok hw hdistinct hb hsub hothers horganization hready hnames
      hrestored
    have hdatabases := madeDatabases_eq hnew hmade (hforall.imp fun _ _ h => h.1)
    rw [hdatabases, List.forall₂_iff_zip]
    refine ⟨hforall.length_eq, fun {d d'} hpair => ?_⟩
    obtain ⟨hproject, hiff, -⟩ := List.forall₂_zip hforall hpair
    exact ⟨hproject, hiff.mpr (hkeeps d (List.of_mem_zip hpair).1).1⟩

theorem catalogRoundTrips_iff_staff :
    CatalogRoundTrips staff [crm] (fun _ => []) 10 (fun _ => true) (fun _ => ⟨5, 1⟩)
        (run Databases.step emptyProject []) ↔
      ∀ d ∈ [crm], KeysTied staff d ∧ KeysAcyclic staff (fun _ => []) d ∧
        ∀ t ∈ schemaTables staff (fun _ => []) d, (fun _ => true) t = true :=
  catalogRoundTrips_iff reachable_staff [crm] (by decide) (by decide) (fun _ => []) 10 1 (fun _ => true)
    (fun _ => ⟨5, 1⟩) (by decide) (by decide) emptyProject [] rfl rfl ⟨by decide, by decide⟩ (by decide)

/-- A table of people, each in a team, and a table of teams, each led by one of the people. -/
def ledTeams : Catalog :=
  (run Databases.step emptyProject
    [ask (.createTenantDatabase 5 "crm"), ask (.createTable 100 "people"), ask (.createTable 100 "teams"),
      ask (.addColumn 102 { name := "team", dataType := .uuid }),
      ask (.addColumn 104 { name := "lead", dataType := .uuid }),
      ask (.addForeignKey 102 106 104 105 .setNull), ask (.addForeignKey 104 108 102 103 .setNull)]).catalog

/-- Two tables that refer to each other are exported, and the package is refused, also without any rows. -/
theorem not_catalogRoundTrips_ledTeams :
    Reachable ledTeams ∧ crm ∈ ledTeams.databases ∧
      ¬ CatalogRoundTrips ledTeams [crm] (fun _ => []) 10 (fun _ => true) (fun _ => ⟨5, 1⟩) emptyProject := by
  refine ⟨⟨emptyProject, _, rfl, rfl, rfl⟩, by decide, ?_⟩
  rintro ⟨s', hrestored, -⟩
  have hrefused : restoreDatabases 10 (fun _ => true) (fun _ => ⟨5, 1⟩) ledTeams (fun _ => []) [crm] emptyProject =
      .error .cannotResolve := by rfl
  rw [hrefused] at hrestored
  cases hrestored

end Exports
