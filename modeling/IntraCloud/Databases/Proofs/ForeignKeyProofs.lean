import IntraCloud.Databases.Proofs.AgreementProofs

/-!
# Consistency of the foreign-key rows

`add_foreign_key` checks the referenced table and the referenced column apart: nothing ties one to the
other. Where each accepted request names a column of the table it references, every row references a
unique column of its table, of the same type and database, and describes the constraint that exists.
-/

namespace Databases

open Audit Permissions Relational Transition

/-- What each foreign-key row says of the rows it refers to. -/
def Tied (cat : Catalog) : Prop :=
  ∀ fk ∈ cat.foreignKeys, ∀ c t rt rc, cat.Resolves fk c t rt rc →
    rc.table = rt.id ∧ (rc.isPrimaryKey = true ∨ rc.isUnique = true) ∧ rc.dataType = c.dataType

/-- The two databases agree and the foreign-key rows are tied. -/
structure TiedInv (s : State) : Prop extends Inv s where
  tied : Tied s.catalog

/-! ## Where the rows are tied -/

section Tied

variable {cat cat' : Catalog} {fresh fresh' : Uuid}

/-- Rows that stay are tied to the same rows. -/
theorem Tied.of_resolves (ht : Tied cat) (hw' : WellFormed cat' fresh')
    (hfks : ∀ fk ∈ cat'.foreignKeys, fk ∈ cat.foreignKeys ∧ ∃ c t rt rc,
      cat.Resolves fk c t rt rc ∧ cat'.Resolves fk c t rt rc) : Tied cat' := by
  intro fk hfk c t rt rc hres
  obtain ⟨hmem, c', t', rt', rc', hres₀, hres'⟩ := hfks fk hfk
  obtain ⟨rfl, rfl, rfl, rfl⟩ := hw'.resolves_unique hres hres'
  exact ht fk hmem c t rt rc hres₀

/-- More rows of the other tables leave the foreign-key rows tied. -/
theorem Tied.of_mono (ht : Tied cat) (hw : WellFormed cat fresh) (hw' : WellFormed cat' fresh')
    (hcols : ∀ x ∈ cat.columns, x ∈ cat'.columns) (htables : ∀ x ∈ cat.tables, x ∈ cat'.tables)
    (hfks : cat'.foreignKeys = cat.foreignKeys) : Tied cat' := by
  refine ht.of_resolves hw' fun fk hfk => ?_
  rw [hfks] at hfk
  obtain ⟨c, t, rt, rc, hres, -⟩ := hw.resolves fk hfk
  exact ⟨hfk, c, t, rt, rc, hres, hres.mono hcols htables⟩

theorem Tied.deleteTables (ht : Tied cat) (hw : WellFormed cat fresh) (gone : DBTable → Bool) :
    Tied (cat.deleteTables gone) := by
  refine ht.of_resolves (hw.deleteTables gone) fun fk hfk => ?_
  obtain ⟨c, t, rt, rc, hres, -⟩ := (hw.deleteTables gone).resolves fk hfk
  exact ⟨(mem_deleteTables_foreignKeys.1 hfk).1, c, t, rt, rc,
    ((resolves_deleteTables hw.toTableRows).1 hres).1, hres⟩

theorem Tied.insertForeignKey {fk : DBForeignKey} (ht : Tied cat) (hw : WellFormed cat fresh)
    {c : DBColumn} {t rt : DBTable} {rc : DBColumn} (hres : cat.Resolves fk c t rt rc)
    (hcol : rc.table = rt.id) (hunique : rc.isPrimaryKey = true ∨ rc.isUnique = true)
    (htype : rc.dataType = c.dataType) (h : cat.insertForeignKey fk = some cat') : Tied cat' := by
  obtain ⟨-, rfl⟩ := insertForeignKey_some h
  intro x hx c' t' rt' rc' hres'
  have hres₀ : cat.Resolves x c' t' rt' rc' := hres'.mono (fun _ h => h) (fun _ h => h)
  rcases mem_concat.1 hx with hx | rfl
  · exact ht x hx c' t' rt' rc' hres₀
  · obtain ⟨rfl, rfl, rfl, rfl⟩ := hw.resolves_unique hres₀ hres
    exact ⟨hcol, hunique, htype⟩

/-- A tied row goes with its referenced table when it goes with its referenced column. -/
theorem Tied.unsevered (ht : Tied cat) (hw : WellFormed cat fresh) (gone : DBTable → Bool)
    {fk : DBForeignKey} (hfk : fk ∈ cat.foreignKeys) : cat.severs gone fk = false := by
  obtain ⟨c, t, rt, rc, hres, -⟩ := hw.resolves fk hfk
  obtain ⟨htable, -⟩ := ht fk hfk c t rt rc hres
  have hcol : cat.goneColumn gone fk.referencesColumn = gone rt :=
    goneColumn_eq hw.toTableRows hres.refColumn_mem hres.refTable_mem hres.refColumn_id htable.symm
  have hrt : cat.goneTable gone fk.referencesTable = gone rt :=
    goneTable_eq hw.toTableRows hres.refTable_mem hres.refTable_id
  rw [Catalog.severs, hcol, hrt]
  cases gone rt <;> rfl

end Tied

/-! ## One step -/

/-- The catalog write of a matched request leaves the foreign-key rows tied. -/
theorem tied_write {s : State} (hs : TiedInv s) {r : SchemaRequest} {svc : Service}
    (hr : r.Resolved s svc) {plan : Plan} (hplan : svc.plan = .ok plan) {cat' : Catalog}
    (hwrite : plan.change.write s.catalog = some cat') {fresh' : Uuid} (hw' : WellFormed cat' fresh')
    (hmatched : ∀ tableId columnId rt rc onDelete,
      r = .addForeignKey tableId columnId rt rc onDelete →
        ∀ c ∈ s.catalog.columns, c.id = rc → c.table = rt) : Tied cat' := by
  have hw := hs.wellFormed
  cases hr with
  | createTenantDatabase project =>
    simp only [createTenantDatabase] at hplan
    split at hplan
    · cases hplan
    cases hplan
    obtain rfl := insertDatabase_some hwrite
    exact hs.tied.of_mono hw hw' (fun _ h => h) (fun _ h => h) rfl
  | createTable organization d hd hid =>
    simp only [createTable] at hplan
    split at hplan
    · cases hplan
    cases hplan
    obtain ⟨-, -, rfl⟩ := insertTable_some hwrite
    exact hs.tied.of_mono hw hw' (fun _ h => List.mem_append_left _ h)
      (fun _ h => List.mem_append_left _ h) rfl
  | addColumn organization t ht hid =>
    simp only [addColumn] at hplan
    split at hplan
    · cases hplan
    cases hplan
    obtain ⟨-, -, rfl⟩ := insertColumn_some hwrite
    exact hs.tied.of_mono hw hw' (fun _ h => List.mem_append_left _ h) (fun _ h => h) rfl
  | addForeignKey organization c t rt rc hc hcid ht htid hrt hrtid hrc hrcid =>
    simp only [addForeignKey] at hplan
    split at hplan
    · cases hplan
    rename_i hvalid
    cases hplan
    obtain ⟨-, hunique, htype⟩ := validateForeignKey_ok hvalid
    have htable : rc.table = rt.id := by
      rw [hrtid]
      exact hmatched _ _ _ _ _ rfl rc hrc hrcid
    exact hs.tied.insertForeignKey hw ⟨hc, rfl, ht, htid, hrt, rfl, hrc, rfl⟩ htable hunique.symm
      htype.symm hwrite
  | deleteTable organization t ht hid =>
    cases hplan
    cases hwrite
    exact hs.tied.deleteTables hw _
  | deleteTenantDatabase organization d hd hid =>
    cases hplan
    cases hwrite
    refine hs.tied.of_resolves hw' fun fk hfk => ?_
    obtain ⟨c, t, rt, rc, hres, -⟩ := hw'.resolves fk hfk
    exact ⟨(mem_deleteTables_foreignKeys.1 hfk).1, c, t, rt, rc,
      ((resolves_deleteTables hw.toTableRows).1 (hres.mono (fun _ h => h) (fun _ h => h))).1, hres⟩

/-- A matched step keeps the foreign-key rows tied and the agreement. -/
theorem tiedInv_step {s : State} {a : Action} (hs : TiedInv s) (hm : Matched s a) :
    TiedInv (step s a) := by
  cases a with
  | request fault actor requestId r =>
    rcases handle_cases hs.toInv fault actor requestId r with h | ⟨plan, hacc, hddl, h⟩
    · exact ⟨hs.toInv.of_untouched h, by rw [step, h.1]; exact hs.tied⟩
    have hm' := hm (by rw [hacc]; rfl) hddl
    rcases h with ⟨hd, hf⟩ | ⟨hnone, ⟨svc, hres, hplan⟩, hwrite, hinv, -⟩
    · cases r with
      | deleteTable id => exact absurd hm' hf
      | deleteTenantDatabase id => exact absurd hm' hf
      | createTenantDatabase | createTable | addColumn | addForeignKey => exact absurd rfl hd
    · have hinv' := hinv fun gone _ fk hfk => hs.tied.unsevered hs.wellFormed gone hfk
      refine ⟨hinv', tied_write hs hres hplan hwrite hinv'.wellFormed ?_⟩
      rintro tableId columnId rt rc onDelete rfl
      exact hm' hnone
  | administer => exact ⟨⟨hs.wellFormed, hs.agrees, hs.valid⟩, hs.tied⟩
  | advance => exact ⟨⟨hs.wellFormed, hs.agrees, hs.valid⟩, hs.tied⟩

/-- A tied row of a catalog that agrees with the tenant database is consistent with it. -/
theorem TiedInv.consistent {s : State} (hs : TiedInv s) {fk : DBForeignKey}
    (hfk : fk ∈ s.catalog.foreignKeys) : Consistent s.catalog s.tenant fk := by
  obtain ⟨c, t, rt, rc, hres, hdb⟩ := hs.wellFormed.resolves fk hfk
  obtain ⟨htable, hunique, htype⟩ := hs.tied fk hfk c t rt rc hres
  refine ⟨c, t, rt, rc, hres, htable, hdb, hunique, htype, fun x => ?_⟩
  rw [hs.agrees.foreignKeys.mem_iff]
  constructor
  · rintro ⟨hx, hname⟩
    obtain ⟨fk', hfk', c', t', rt', rc', hres', rfl⟩ := mem_physicalForeignKeys.1 hx
    -- the constraint is named after its column, which has one foreign key
    have hcol : fk'.column = fk.column := by
      rw [← hres'.column_id, ← hres.column_id]
      exact hname
    obtain rfl := hs.wellFormed.foreignKeyColumns fk' hfk' fk hfk hcol
    obtain ⟨rfl, rfl, rfl, rfl⟩ := hs.wellFormed.resolves_unique hres' hres
    rfl
  · rintro rfl
    exact ⟨mem_physicalForeignKeys.2 ⟨fk, hfk, c, t, rt, rc, hres, rfl⟩, rfl⟩

/-- From two empty databases, in every run whose requests are all matched, every foreign-key row is
consistent in every state the run goes through, and every constraint of the tenant database is that
of a row. -/
theorem consistent_of_matched (s : State) (as : List Action) (hcat : s.catalog = Catalog.empty)
    (hten : s.tenant = Tenant.empty) (hm : Always step Matched s as) :
    let s' := run step s as
    (∀ fk ∈ s'.catalog.foreignKeys, Consistent s'.catalog s'.tenant fk) ∧
      SameMembers s'.tenant.foreignKeys s'.catalog.physicalForeignKeys := by
  have hs : TiedInv (run step s as) := by
    refine run_invariant (fun _ _ => tiedInv_step) ⟨?_, ?_⟩ hm
    · refine ⟨hcat ▸ wellFormed_empty _, ?_, hten ▸ Tenant.valid_empty⟩
      rw [hcat, hten]
      exact ⟨SameMembers.refl _, SameMembers.refl _, SameMembers.refl _, SameMembers.refl _⟩
    · rw [hcat]
      intro fk hfk
      cases hfk
  exact ⟨fun fk hfk => hs.consistent hfk, hs.agrees.foreignKeys⟩

theorem consistent_of_matched_twoTables :
    let s' := run step emptyProject (twoTables ++ [ask (.addForeignKey 106 108 102 104 .cascade)])
    (∀ fk ∈ s'.catalog.foreignKeys, Consistent s'.catalog s'.tenant fk) ∧
      SameMembers s'.tenant.foreignKeys s'.catalog.physicalForeignKeys :=
  consistent_of_matched emptyProject _ rfl rfl (by decide)

/-- The columns 104 and 110 are both unique text columns named `code`, of the tables 102 and 106, and
the foreign key references the table 102 through the column 110 of the other one. -/
def mixedForeignKey : List Action :=
  twoTables ++
    [ask (.addColumn 106 { name := "code", dataType := .text, isUnique := true }),
      ask (.addForeignKey 106 108 102 110 .restrict)]

/-- The mixed foreign key is accepted and not consistent. -/
theorem not_consistent_of_other_column :
    let s := run step emptyProject mixedForeignKey
    (∃ fk ∈ s.catalog.foreignKeys, ∃ rc ∈ s.catalog.columns, rc.id = fk.referencesColumn ∧
      rc.table ≠ fk.referencesTable) ∧
      ¬ ∀ fk ∈ s.catalog.foreignKeys, Consistent s.catalog s.tenant fk := by
  intro s
  have hrow : ∃ fk ∈ s.catalog.foreignKeys, ∃ rc ∈ s.catalog.columns,
      rc.id = fk.referencesColumn ∧ rc.table ≠ fk.referencesTable := by
    decide
  refine ⟨hrow, fun h => ?_⟩
  obtain ⟨fk, hfk, rc, hrc, hid, hne⟩ := hrow
  obtain ⟨c, t, rt, rc', hres, htable, -⟩ := h fk hfk
  have hids : Keyed (·.id) s.catalog.columns := by
    unfold Keyed
    decide
  have heq := hids rc hrc rc' hres.refColumn_mem (hid.trans hres.refColumn_id.symm)
  exact hne (by rw [heq, htable, hres.refTable_id])

end Databases
