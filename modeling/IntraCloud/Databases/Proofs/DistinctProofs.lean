import IntraCloud.Databases.Proofs.ServicesProofs
import IntraCloud.Transition.Proofs.RunsProofs

/-!
# What the services write to the catalog

One inversion lemma for what a step does to the catalog, with the checks that its request passed; and that
no two rows of the catalog have one id.
-/

namespace Databases

open Relational Transition

/-- A catalog write of the services, with the checks before it. -/
inductive CatalogChange (cat : Catalog) (fresh : Uuid) : Catalog → Prop where
  | database {cat'} (project : Uuid) (name : String) (hname : name ≠ "" ∧ name.length ≤ 200)
    (hwrite : cat.insertDatabase ⟨fresh, project, name⟩ = some cat') : CatalogChange cat fresh cat'
  | table {cat'} (d : TenantDatabase) (name : String) (hd : d ∈ cat.databases)
    (hname : validateIdentifier name "table name" = .ok ())
    (hwrite : cat.insertTable (newTable fresh d name) (newPrimaryKey fresh) = some cat') :
    CatalogChange cat fresh cat'
  | column {cat'} (t : DBTable) (spec : ColumnSpec) (x : PhysicalColumn) (ht : t ∈ cat.tables)
    (hspec : columnDdl t spec = .ok x)
    (hwrite : cat.insertColumn (newColumn fresh t spec) (newIndex fresh t spec) = some cat') :
    CatalogChange cat fresh cat'
  | foreignKey {cat'} (c : DBColumn) (t rt : DBTable) (rc : DBColumn) (onDelete : OnDelete)
    (hc : c ∈ cat.columns) (ht : t ∈ cat.tables) (hct : t.id = c.table) (hrt : rt ∈ cat.tables)
    (hrc : rc ∈ cat.columns) (hvalid : validateForeignKey cat c t rt rc onDelete = .ok ())
    (hwrite : cat.insertForeignKey (newForeignKey fresh c rt rc onDelete) = some cat') :
    CatalogChange cat fresh cat'
  | deleteTable (t : DBTable) : CatalogChange cat fresh (cat.deleteTable t)
  | deleteDatabase (d : TenantDatabase) : CatalogChange cat fresh (cat.deleteDatabase d)

theorem SchemaRequest.Resolved.change {s : State} {r : SchemaRequest} {svc : Service}
    (hr : r.Resolved s svc) {plan : Plan} (h : svc.plan = .ok plan) {cat' : Catalog}
    (hwrite : plan.change.write s.catalog = some cat') : CatalogChange s.catalog s.nextUuid cat' := by
  cases hr with
  | createTenantDatabase project =>
    simp only [Databases.createTenantDatabase] at h
    split at h
    · cases h
    rename_i hname
    cases h
    rw [not_or] at hname
    exact .database _ _ ⟨hname.1, Nat.le_of_not_lt hname.2⟩ hwrite
  | createTable organization d hd hid =>
    simp only [Databases.createTable] at h
    split at h
    · cases h
    rename_i hname
    cases h
    exact .table d _ hd hname hwrite
  | addColumn organization t ht hid =>
    simp only [Databases.addColumn] at h
    split at h
    · cases h
    rename_i x hspec
    cases h
    exact .column t _ x ht hspec hwrite
  | addForeignKey organization c t rt rc hc hcid ht htid hrt hrtid hrc hrcid =>
    simp only [Databases.addForeignKey] at h
    split at h
    · cases h
    rename_i hvalid
    cases h
    exact .foreignKey c t rt rc _ hc ht htid hrt hrc hvalid hwrite
  | deleteTable organization t ht hid =>
    cases h
    cases hwrite
    exact .deleteTable t
  | deleteTenantDatabase organization d hd hid =>
    cases h
    cases hwrite
    exact .deleteDatabase d

/-- A step leaves the catalog as it was, or writes one change to it. -/
theorem catalog_step (s : State) (a : Action) :
    (step s a).catalog = s.catalog ∨ CatalogChange s.catalog s.nextUuid (step s a).catalog := by
  cases a with
  | administer memberships projects roleAssignments => exact .inl rfl
  | advance seconds => exact .inl rfl
  | request fault actor requestId r =>
    show (handle s fault actor requestId r).1.catalog = s.catalog ∨
      CatalogChange s.catalog s.nextUuid (handle s fault actor requestId r).1.catalog
    unfold handle
    cases hr : r.resolve s actor with
    | error e => exact .inl rfl
    | ok svc =>
      dsimp only
      rcases call_cases svc s fault actor requestId with
        ⟨hcat, -, -, -⟩ | ⟨plan, ten', ⟨-, hplan, -, -⟩, hout⟩
      · exact .inl hcat
      · rcases hout with ⟨-, hcat, -, -, -⟩ | ⟨-, hwrite, -, -, -⟩
        · exact .inl hcat
        · exact .inr ((resolve_ok hr).change hplan hwrite)

/-- What every catalog write keeps holds of the catalog after any step. -/
theorem catalog_invariant {I : Catalog → Prop}
    (hchange : ∀ {cat fresh cat'}, WellFormed cat fresh → I cat → CatalogChange cat fresh cat' → I cat')
    {s : State} (hs : Sound s) (h : I s.catalog) (a : Action) : I (step s a).catalog := by
  rcases catalog_step s a with hcat | hcat
  · rw [hcat]
    exact h
  · exact hchange hs.wellFormed h hcat

/-- And of every catalog that the services arrive at from two empty databases. -/
theorem catalog_of_run {I : Catalog → Prop} (hempty : I Catalog.empty)
    (hchange : ∀ {cat fresh cat'}, WellFormed cat fresh → I cat → CatalogChange cat fresh cat' → I cat')
    {s : State} (hcat : s.catalog = Catalog.empty) (hten : s.tenant = Tenant.empty) (as : List Action) :
    Sound (run step s as) ∧ I (run step s as).catalog := by
  have hstart : Sound s ∧ I s.catalog :=
    ⟨⟨hcat ▸ wellFormed_empty _, hten ▸ Tenant.valid_empty⟩, hcat.symm ▸ hempty⟩
  have hstep : ∀ s a, Sound s ∧ I s.catalog → Sound (step s a) ∧ I (step s a).catalog :=
    fun s a h => ⟨sound_step a h.1, catalog_invariant hchange h.1 h.2 a⟩
  exact run_invariant_of_forall hstep hstart as

/-! ## Ids -/

/-- No two rows have one id, and no two foreign keys one column. -/
structure Catalog.Distinct (cat : Catalog) : Prop where
  databases : (cat.databases.map (·.id)).Nodup
  tables : (cat.tables.map (·.id)).Nodup
  columns : (cat.columns.map (·.id)).Nodup
  foreignKeys : (cat.foreignKeys.map (·.column)).Nodup

theorem nodup_map_concat {α β : Type} {f : α → β} {l : List α} {a : α} (h : (l.map f).Nodup)
    (ha : ∀ x ∈ l, f x ≠ f a) : ((l ++ [a]).map f).Nodup := by
  rw [List.map_append, List.map_singleton, List.nodup_append]
  refine ⟨h, List.pairwise_singleton _ _, ?_⟩
  intro y hy z hz
  obtain ⟨x, hx, rfl⟩ := List.mem_map.mp hy
  rw [List.mem_singleton.mp hz]
  exact ha x hx

theorem nodup_map_filter {α β : Type} {f : α → β} {l : List α} (p : α → Bool) (h : (l.map f).Nodup) :
    ((l.filter p).map f).Nodup :=
  h.sublist (List.filter_sublist.map f)

theorem Catalog.Distinct.deleteTables {cat : Catalog} (h : cat.Distinct) (gone : DBTable → Bool) :
    (cat.deleteTables gone).Distinct :=
  ⟨h.databases, nodup_map_filter _ h.tables, nodup_map_filter _ h.columns, nodup_map_filter _ h.foreignKeys⟩

theorem Catalog.Distinct.change {cat cat' : Catalog} {fresh : Uuid} (hw : WellFormed cat fresh)
    (h : cat.Distinct) (hchange : CatalogChange cat fresh cat') : cat'.Distinct := by
  cases hchange with
  | database project name hname hwrite =>
    obtain rfl := insertDatabase_some hwrite
    have hnew : ∀ x ∈ cat.databases, x.id ≠ fresh := fun x hx => Nat.ne_of_lt (hw.databaseFresh x hx)
    exact ⟨nodup_map_concat h.databases hnew, h.tables, h.columns, h.foreignKeys⟩
  | table d name hd hname hwrite =>
    obtain ⟨-, -, rfl⟩ := insertTable_some hwrite
    have htable : ∀ x ∈ cat.tables, x.id ≠ fresh := fun x hx => Nat.ne_of_lt (hw.tableFresh x hx)
    have hcolumn : ∀ x ∈ cat.columns, x.id ≠ fresh + 1 := by
      intro x hx
      exact Nat.ne_of_lt (Nat.lt_succ_of_lt (hw.columnFresh x hx))
    exact ⟨h.databases, nodup_map_concat h.tables htable, nodup_map_concat h.columns hcolumn, h.foreignKeys⟩
  | column t spec x ht hspec hwrite =>
    obtain ⟨-, -, rfl⟩ := insertColumn_some hwrite
    have hcolumn : ∀ x ∈ cat.columns, x.id ≠ fresh := fun x hx => Nat.ne_of_lt (hw.columnFresh x hx)
    exact ⟨h.databases, h.tables, nodup_map_concat h.columns hcolumn, h.foreignKeys⟩
  | foreignKey c t rt rc onDelete hc ht hct hrt hrc hvalid hwrite =>
    obtain ⟨hnew, rfl⟩ := insertForeignKey_some hwrite
    exact ⟨h.databases, h.tables, h.columns, nodup_map_concat h.foreignKeys hnew⟩
  | deleteTable t => exact h.deleteTables _
  | deleteDatabase d =>
    have hdeleted := h.deleteTables fun x => x.tenantDatabase == d.id
    exact ⟨nodup_map_filter _ hdeleted.databases, hdeleted.tables, hdeleted.columns, hdeleted.foreignKeys⟩

end Databases
