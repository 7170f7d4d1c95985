import IntraCloud.Databases.Proofs.DistinctProofs
import IntraCloud.Exports.Proofs.RestorerProofs
import IntraCloud.Exports.Proofs.ScanProofs
import IntraCloud.Exports.Restorer
import IntraCloud.Relational.Insertion

/-!
# Whether a restore inserts rows in order

The tables can be put in order where no table depends on itself through others, and then the rows are in
order where the references within each table go backward by id.
-/

namespace Exports

open Databases Relational Transition

theorem Reachable.distinct {cat : Catalog} (h : Reachable cat) :
    ∃ fresh, WellFormed cat fresh ∧ cat.Distinct := by
  obtain ⟨s, as, hcat, hten, rfl⟩ := h
  have hempty : Catalog.empty.Distinct := ⟨List.nodup_nil, List.nodup_nil, List.nodup_nil, List.nodup_nil⟩
  obtain ⟨hs, hdistinct⟩ := catalog_of_run hempty (fun hw h => h.change hw) hcat hten as
  exact ⟨_, hs.wellFormed, hdistinct⟩

/-! ## Rows in the order of their ids -/

section Ids

variable {ν : Type} {V : ValueType ν}

theorem pairwise_orderById (rows : List (Row ν)) : (orderById rows).Pairwise fun r r' => r.id ≤ r'.id := by
  have hsorted := List.pairwise_insertionSort (fun r r' : Row ν => r.id ≤ r'.id) rows
  exact hsorted

/-- In the order of the ids, backward is to a row with a smaller id or to the row itself. -/
theorem backward_orderById_iff {rows : List (Row ν)} (hids : (rows.map (·.id)).Nodup)
    {fk : ForeignKey TableKey String} :
    V.values.Backward fk (orderById rows) ↔ ∀ r ∈ rows, r.value V fk.column = none ∨
      ∃ r' ∈ rows, V.values.refers fk r r' = true ∧ r'.id ≤ r.id := by
  have hsorted := pairwise_orderById rows
  constructor
  · intro h r hr
    obtain ⟨before, after, horder⟩ := List.append_of_mem (mem_orderById.mpr hr)
    rcases Values.resolves_iff.mp (h before r after horder) with hnone | ⟨r', hr', hrefers⟩
    · exact .inl hnone
    · right
      refine ⟨r', ?_, hrefers, ?_⟩
      · rw [← mem_orderById, horder, List.append_cons]
        exact List.mem_append_left _ hr'
      · rcases List.mem_append.mp hr' with hbefore | hlast
        · rw [horder, List.pairwise_append] at hsorted
          exact hsorted.2.2 r' hbefore r (List.mem_cons_self ..)
        · rw [List.mem_singleton.mp hlast]
  · intro h before r after horder
    have hr : r ∈ rows := by
      rw [← mem_orderById, horder]
      exact List.mem_append_right _ (List.mem_cons_self ..)
    refine Values.resolves_iff.mpr ?_
    rcases h r hr with hnone | ⟨r', hr', hrefers, hle⟩
    · exact .inl hnone
    · right
      refine ⟨r', ?_, hrefers⟩
      have hmem := mem_orderById.mpr hr'
      rw [horder, List.append_cons] at hmem
      rcases List.mem_append.mp hmem with hbefore | hafter
      · exact hbefore
      · -- a row after it has no smaller id
        rw [horder, List.pairwise_append] at hsorted
        have hge := (List.pairwise_cons.mp hsorted.2.1).1 r' hafter
        have heq := List.inj_on_of_nodup_map hids hr' hr (Nat.le_antisymm hle hge)
        rw [heq]
        exact List.mem_append_right _ (List.mem_singleton_self r)

end Ids

/-! ## The package -/

section Package

variable {ν : Type} {V : ValueType ν} {cat : Catalog} {fresh : Uuid} {d : TenantDatabase}
  {rows : TenantRows ν} {schema : SchemaName}

/-- The foreign key in the restored database. -/
def movedKey (schema : SchemaName) (key : TenantKey) : ForeignKey TableKey String :=
  { table := (schema, key.table.2)
    column := key.column
    refTable := (schema, key.refTable.2)
    refColumn := key.refColumn }

/-- The rows of the restored database. -/
def movedRows (rows : TenantRows ν) (d : TenantDatabase) (t : TableKey) : List (Row ν) :=
  orderById (rows.ofTable (⟨d.id⟩, t.2))

theorem restoredKeys_eq :
    restoredKeys schema (packageTables V cat rows d) = (exportedKeys cat [d]).map (movedKey schema) := by
  simp only [restoredKeys, packageTables, exportedKeys, List.flatMap_map, List.map_flatMap, List.map_map,
    tableData, tableContent]
  rfl

variable (V cat rows d) in
theorem map_name_packageTables :
    (packageTables V cat rows d).map (fun t => t.1.name) = (exportedTables cat [d]).map (·.name) := by
  simp only [packageTables, List.map_map]
  rfl

theorem physical_of_exported {t : DBTable} (ht : t ∈ exportedTables cat [d]) : t.physical = (⟨d.id⟩, t.name) := by
  obtain ⟨-, d', hd', hdb⟩ := mem_exportedTables.mp ht
  rw [List.mem_singleton.mp hd'] at hdb
  rw [DBTable.physical, hdb]

variable (V rows d) in
theorem nodup_names (hw : WellFormed cat fresh) (hdistinct : cat.Distinct) :
    ((packageTables V cat rows d).map fun t => t.1.name).Nodup := by
  rw [map_name_packageTables V cat d rows]
  have hsingle : exportedTables cat [d] = cat.tables.filter (·.tenantDatabase == d.id) := by
    rw [exportedTables, List.flatMap_cons, List.flatMap_nil, List.append_nil]
  have hnodup : (exportedTables cat [d]).Nodup := by
    rw [hsingle]
    exact (List.Nodup.of_map _ hdistinct.tables).filter _
  refine hnodup.map_on ?_
  intro t ht u hu hname
  refine hw.tableNames t (mem_exportedTables.mp ht).1 u (mem_exportedTables.mp hu).1 ?_
  show t.physical = u.physical
  rw [physical_of_exported ht, physical_of_exported hu, hname]

theorem snd_packageTables (schema : SchemaName) {t : TablePart ν} (ht : t ∈ packageTables V cat rows d) :
    t.2 = movedRows rows d (schema, t.1.name) := by
  obtain ⟨u, hu, rfl⟩ := List.mem_map.mp ht
  show orderById (rows.ofTable u.physical) = orderById (rows.ofTable (⟨d.id⟩, u.name))
  rw [physical_of_exported hu]

theorem restoredRows_eq {tables : List (TablePart ν)} (h : ∀ t ∈ tables, t ∈ packageTables V cat rows d) :
    restoredRows schema tables =
      tableByTable (movedRows rows d) (tables.map fun t => (schema, t.1.name)) := by
  rw [restoredRows, tableByTable, List.flatMap_map]
  refine List.flatMap_congr fun t ht => ?_
  rw [← snd_packageTables schema (h t ht)]

theorem mem_names_of_key (hw : WellFormed cat fresh) {key : TenantKey} (hkey : key ∈ exportedKeys cat [d]) :
    (key.table.1 = ⟨d.id⟩ ∧ key.table.2 ∈ (exportedTables cat [d]).map (·.name)) ∧
      key.refTable.1 = ⟨d.id⟩ ∧ key.refTable.2 ∈ (exportedTables cat [d]).map (·.name) := by
  obtain ⟨htable, href⟩ := tables_of_exportedKey hw hkey
  obtain ⟨t, ht, heq⟩ := List.mem_map.mp htable
  obtain ⟨rt, hrt, heq'⟩ := List.mem_map.mp href
  rw [physical_of_exported ht] at heq
  rw [physical_of_exported hrt] at heq'
  rw [← heq, ← heq']
  exact ⟨⟨rfl, List.mem_map_of_mem ht⟩, rfl, List.mem_map_of_mem hrt⟩

theorem closed_moved (hw : WellFormed cat fresh) (hrows : rows.Sound V (exportedKeys cat [d])) :
    V.values.Closed (restoredKeys schema (packageTables V cat rows d)) (movedRows rows d) := by
  rw [restoredKeys_eq]
  intro fk hfk r hr
  obtain ⟨key, hkey, rfl⟩ := List.mem_map.mp hfk
  obtain ⟨⟨htable, -⟩, href, -⟩ := mem_names_of_key hw hkey
  have htableKey : ((⟨d.id⟩ : SchemaName), key.table.2) = key.table := Prod.ext htable.symm rfl
  have hrefKey : ((⟨d.id⟩ : SchemaName), key.refTable.2) = key.refTable := Prod.ext href.symm rfl
  have hmem : r ∈ rows.ofTable key.table := by
    rw [← htableKey]
    exact mem_orderById.mp hr
  have hresolves := hrows key.toForeignKey (List.mem_map_of_mem hkey) r hmem
  refine Values.resolves_mono hresolves ?_
  intro r' hr'
  change r' ∈ rows.ofTable key.refTable at hr'
  rw [← hrefKey] at hr'
  exact mem_orderById.mpr hr'

theorem needs_closed (hw : WellFormed cat fresh) :
    (tableDependencies (Prod.fst : TablePart ν → TableData)).Closed (packageTables V cat rows d) := by
  intro t ht n hn
  obtain ⟨u, hu, rfl⟩ := List.mem_map.mp ht
  obtain ⟨hn, -⟩ := List.mem_filter.mp hn
  obtain ⟨content, hcontent, rfl⟩ := List.mem_map.mp hn
  obtain ⟨fk, hfk, rfl⟩ := List.mem_map.mp hcontent
  have hkey : exportedKey u (foreignKeyContent cat fk) ∈ exportedKeys cat [d] :=
    mem_exportedKeys.mpr ⟨u, hu, fk, hfk, rfl⟩
  obtain ⟨-, -, href⟩ := mem_names_of_key hw hkey
  show tableName cat fk.referencesTable ∈ (packageTables V cat rows d).map fun t => t.1.name
  rw [map_name_packageTables V cat d rows]
  exact href

variable (schema) in
/-- In an order of the tables, a table comes after those that its foreign keys reference. -/
theorem afterReferenced_of_ordered (hnames : ((packageTables V cat rows d).map fun t => t.1.name).Nodup)
    {order : List (TablePart ν)}
    (hordered : (tableDependencies (Prod.fst : TablePart ν → TableData)).Ordered order)
    (hperm : order.Perm (packageTables V cat rows d)) :
    AfterReferenced (restoredKeys schema (packageTables V cat rows d))
      (order.map fun t => (schema, t.1.name)) := by
  intro before key after heq fk hfk htable href
  obtain ⟨tables, rest, rfl, rfl, hrest⟩ := List.map_eq_append_iff.mp heq
  obtain ⟨t, others, rfl, rfl, rfl⟩ := List.map_eq_cons_iff.mp hrest
  obtain ⟨u, hu, hfk⟩ := List.mem_flatMap.mp hfk
  obtain ⟨content, hcontent, rfl⟩ := List.mem_map.mp hfk
  have ht : t ∈ packageTables V cat rows d :=
    hperm.mem_iff.mp (List.mem_append_right _ (List.mem_cons_self ..))
  have hname : u.1.name = t.1.name := (Prod.mk.inj htable).2
  obtain rfl := List.inj_on_of_nodup_map hnames hu ht hname
  have hne : content.referencesTable ≠ u.1.name := by
    intro hsame
    exact href (congrArg (Prod.mk schema) hsame)
  have hneeds : content.referencesTable ∈ u.1.dependencies :=
    List.mem_filter.mpr ⟨List.mem_map_of_mem hcontent, decide_eq_true hne⟩
  obtain ⟨v, hv, hvname⟩ := List.mem_map.mp (hordered tables u others rfl _ hneeds)
  exact List.mem_map.mpr ⟨v, hv, congrArg (Prod.mk schema) hvname⟩

theorem nodup_ids (hids : (rows.map storedKey).Nodup) (t : TableKey) :
    ((rows.ofTable t).map (·.id)).Nodup := by
  have hfilter := nodup_map_filter (fun stored => stored.1 == t) hids
  have hmap : (rows.filter fun stored => stored.1 == t).map storedKey =
      ((rows.ofTable t).map (·.id)).map fun id => (t, id) := by
    rw [TenantRows.ofTable, List.map_map, List.map_map]
    refine List.map_congr_left fun stored hstored => ?_
    obtain ⟨-, ht⟩ := List.mem_filter.mp hstored
    show (stored.1, stored.2.id) = (t, stored.2.id)
    rw [eq_of_beq ht]
  rw [hmap] at hfilter
  exact List.Nodup.of_map _ hfilter

/-- With the tables in an order, the rows are in order where references within a table go backward. -/
theorem inOrder_iff_of_ordered (hw : WellFormed cat fresh) (hdistinct : cat.Distinct)
    (hrows : rows.Sound V (exportedKeys cat [d])) (hids : (rows.map storedKey).Nodup)
    {order : List (TablePart ν)} (horder : topologicalOrder Prod.fst (packageTables V cat rows d) = some order) :
    V.values.InOrder (restoredKeys schema (packageTables V cat rows d)) (restoredRows schema order) ↔
      SelfReferencesBackward V (exportedKeys cat [d]) rows := by
  have hnames := nodup_names V d rows hw hdistinct
  obtain ⟨hordered, hperm⟩ := topologicalOrder_some hnames horder
  have hnodup : (order.map fun t => (schema, t.1.name)).Nodup := by
    have hmap := (hperm.map fun t => t.1.name).nodup_iff.mpr hnames
    have hpair := hmap.map (f := fun name => (schema, name)) fun a b h => (Prod.mk.inj h).2
    rwa [List.map_map] at hpair
  have hafter := afterReferenced_of_ordered schema hnames hordered hperm
  rw [restoredRows_eq fun t ht => hperm.mem_iff.mp ht,
    inOrder_tableByTable_iff (closed_moved hw hrows) hnodup hafter, restoredKeys_eq]
  constructor
  · intro h key hkey hself
    obtain ⟨⟨htable, hname⟩, -⟩ := mem_names_of_key hw hkey
    have hmem : (schema, key.table.2) ∈ order.map fun t => (schema, t.1.name) := by
      rw [← map_name_packageTables V cat d rows] at hname
      obtain ⟨t, ht, heq⟩ := List.mem_map.mp hname
      exact List.mem_map.mpr ⟨t, hperm.mem_iff.mpr ht, congrArg (Prod.mk schema) heq⟩
    have hkeySelf : (movedKey schema key).refTable = (movedKey schema key).table :=
      congrArg (fun t : TableKey => (schema, t.2)) hself
    have hbackward := h _ (List.mem_map_of_mem hkey) hmem hkeySelf
    have hrowsEq : rows.ofTable (⟨d.id⟩, key.table.2) = rows.ofTable key.table :=
      congrArg rows.ofTable (Prod.ext htable.symm rfl)
    rw [← hrowsEq]
    exact (backward_orderById_iff (nodup_ids hids _)).mp hbackward
  · intro h fk hfk _ hself
    obtain ⟨key, hkey, rfl⟩ := List.mem_map.mp hfk
    obtain ⟨⟨htable, -⟩, href, -⟩ := mem_names_of_key hw hkey
    have hkeySelf : key.refTable = key.table :=
      Prod.ext (href.trans htable.symm) (Prod.mk.inj hself).2
    have hrowsEq : rows.ofTable (⟨d.id⟩, key.table.2) = rows.ofTable key.table :=
      congrArg rows.ofTable (Prod.ext htable.symm rfl)
    have hbackward := h key hkey hkeySelf
    rw [← hrowsEq] at hbackward
    exact (backward_orderById_iff (nodup_ids hids _)).mpr hbackward

end Package

/-! ## The restore -/

theorem neverRefused_of_restoresInOrder {ν : Type} {V : ValueType ν} {schema : SchemaName}
    {tables : List (TablePart ν)} (h : RestoresInOrder V schema tables) : NeverRefused V schema tables := by
  obtain ⟨order, horder, hinOrder⟩ := h
  intro ν' V' convert hkeeps
  refine ⟨(restoredRows schema order).map fun x => (x.1, convert x.2), ?_⟩
  rw [restoreAllRows, horder]
  dsimp only
  rw [insertAll_of_inOrder (hkeeps.inOrder hinOrder)]

/-- The rows of a tenant database are restored in order, and never refused, exactly where no table depends on
itself through other tables and every row that refers to its own table refers backward. -/
theorem restoresInOrder_iff {ν : Type} (V : ValueType ν) {cat : Catalog} (hcat : Reachable cat)
    (d : TenantDatabase) (rows : TenantRows ν) (hrows : rows.Sound V (exportedKeys cat [d]))
    (hids : (rows.map storedKey).Nodup) (schema : SchemaName) :
    RestoresInOrder V schema (packageTables V cat rows d) ∧ NeverRefused V schema (packageTables V cat rows d) ↔
      AcyclicTables (packageTables V cat rows d) ∧ SelfReferencesBackward V (exportedKeys cat [d]) rows := by
  obtain ⟨fresh, hw, hdistinct⟩ := hcat.distinct
  have hnames := nodup_names V d rows hw hdistinct
  have hsome := topologicalOrder_isSome_iff hnames
  constructor
  · rintro ⟨⟨order, horder, hinOrder⟩, -⟩
    refine ⟨(hsome.mp (Option.isSome_iff_exists.mpr ⟨order, horder⟩)).2, ?_⟩
    exact (inOrder_iff_of_ordered hw hdistinct hrows hids horder).mp hinOrder
  · rintro ⟨hacyclic, hbackward⟩
    obtain ⟨order, horder⟩ := Option.isSome_iff_exists.mp (hsome.mpr ⟨needs_closed hw, hacyclic⟩)
    have hinOrder : RestoresInOrder V schema (packageTables V cat rows d) :=
      ⟨order, horder, (inOrder_iff_of_ordered hw hdistinct hrows hids horder).mpr hbackward⟩
    exact ⟨hinOrder, neverRefused_of_restoresInOrder hinOrder⟩

/-- A table of people, each with a manager among them, and a table of badges of people. -/
def staff : Catalog :=
  (run Databases.step emptyProject
    [ask (.createTenantDatabase 5 "crm"), ask (.createTable 100 "people"),
      ask (.addColumn 102 { name := "manager", dataType := .uuid }),
      ask (.addForeignKey 102 104 102 103 .restrict), ask (.createTable 100 "badges"),
      ask (.addColumn 108 { name := "person", dataType := .uuid }),
      ask (.addForeignKey 108 110 102 103 .cascade)]).catalog

theorem reachable_staff : Reachable staff :=
  ⟨emptyProject, _, rfl, rfl, rfl⟩

def crm : TenantDatabase := { id := 100, project := 5, name := "crm" }

def badges : TableKey := (⟨100⟩, "badges")

/-- The second person is managed by the first one, and has a badge. -/
def managedByFirst : TenantRows Nat :=
  [(people, ⟨2, [("manager", 1)]⟩), (badges, ⟨7, [("person", 2)]⟩), (people, ⟨1, []⟩)]

theorem restoresInOrder_iff_managedByFirst :
    RestoresInOrder numbers ⟨200⟩ (packageTables numbers staff managedByFirst crm) ∧
      NeverRefused numbers ⟨200⟩ (packageTables numbers staff managedByFirst crm) := by
  have hacyclic : AcyclicTables (packageTables numbers staff managedByFirst crm) := by
    obtain ⟨fresh, hw, hdistinct⟩ := reachable_staff.distinct
    have hsome := topologicalOrder_isSome_iff (nodup_names numbers crm managedByFirst hw hdistinct)
    exact (hsome.mp (by decide)).2
  refine (restoresInOrder_iff numbers reachable_staff crm managedByFirst (by decide) (by decide) ⟨200⟩).mpr
    ⟨hacyclic, ?_⟩
  unfold SelfReferencesBackward
  decide

/-- The first person is managed by the second one, and is inserted first. -/
theorem not_restoresInOrder_of_forward_reference :
    ¬ ∀ (V : ValueType Nat) (cat : Catalog), Reachable cat → ∀ d ∈ cat.databases, ∀ rows : TenantRows Nat,
      rows.Sound V (exportedKeys cat [d]) → (rows.map storedKey).Nodup → ∀ schema : SchemaName,
        RestoresInOrder V schema (packageTables V cat rows d) ∧
          NeverRefused V schema (packageTables V cat rows d) := by
  intro h
  have hrestores := h numbers staff reachable_staff crm (by decide)
    [(people, ⟨1, [("manager", 2)]⟩), (people, ⟨2, []⟩)] (by decide) (by decide) ⟨200⟩
  obtain ⟨restored, hrestored⟩ := hrestores.2 Nat numbers id fun fk _ r => ⟨fun hnone => hnone,
    fun r' hrefers => .inr hrefers⟩
  have hrefused : restoreAllRows numbers id ⟨200⟩ (packageTables numbers staff
      [(people, ⟨1, [("manager", 2)]⟩), (people, ⟨2, []⟩)] crm) =
        .error (.foreignKey (⟨200⟩, "people") 1) := by
    decide
  rw [hrefused] at hrestored
  cases hrestored

end Exports
