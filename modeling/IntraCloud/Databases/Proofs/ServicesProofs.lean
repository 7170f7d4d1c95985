import IntraCloud.Databases.Proofs.CatalogProofs
import IntraCloud.Transition.Proofs.RunsProofs

/-!
# The service pipeline

One inversion lemma for a service call, one for the lookups of each view, and what every change a view
can resolve to does: it keeps the agreement where it goes through, and its compensation undoes its
DDL.
-/

namespace Databases

open Audit Organizations Permissions Relational

/-- What `record` leaves differs in the audit log only. -/
theorem record_some {s s' : State} {e : AuditEvent} (h : s.record e = some s') :
    e.fits = true ∧ ∃ audit, s' = { s with tables := { s.tables with audit } } := by
  simp only [State.record, Option.map_eq_some_iff] at h
  obtain ⟨audit, haudit, rfl⟩ := h
  exact ⟨(record_eq_some.1 haudit).1, audit, rfl⟩

theorem record_none {s : State} {e : AuditEvent} (h : s.record e = none) : e.fits = false := by
  rw [State.record, Option.map_eq_none_iff] at h
  exact record_eq_none.1 h

/-! ## One call -/

/-- The catalog and the tenant database are as before, and the call raised. -/
def Untouched (s : State) (out : State × Except SchemaError Unit) : Prop :=
  out.1.catalog = s.catalog ∧ out.1.tenant = s.tenant ∧ s.nextUuid ≤ out.1.nextUuid ∧
    out.2 ≠ .ok ()

/-- The DDL went through and the catalog write did not. -/
def Undone (s : State) (fault : Option Fault) (change : Change) (ten' : Tenant)
    (out : State × Except SchemaError Unit) : Prop :=
  (fault = some .catalogWrite ∨ change.write s.catalog = none) ∧ out.1.catalog = s.catalog ∧
    out.1.tenant = (change.compensating.bind ten'.exec).getD ten' ∧
    out.1.nextUuid = s.nextUuid + 2 ∧ out.2 ≠ .ok ()

/-- Both writes went through; the call raises where its event does not fit the log. -/
def Written (s : State) (svc : Service) (fault : Option Fault) (actor : Uuid) (requestId : String)
    (change : Change) (ten' : Tenant) (out : State × Except SchemaError Unit) : Prop :=
  fault = none ∧ change.write s.catalog = some out.1.catalog ∧ out.1.tenant = ten' ∧
    out.1.nextUuid = s.nextUuid + 2 ∧
    (out.2 = .ok () ∨ (svc.done actor requestId).fits = false)

theorem writeCatalog_cases (s : State) (faulty : Bool) (change : Change) :
    (faulty = false ∧ ∃ catalog, change.write s.catalog = some catalog ∧
      writeCatalog s faulty change = ({ s with catalog }, .ok ())) ∨
    ((faulty = true ∨ change.write s.catalog = none) ∧ writeCatalog s faulty change =
      ({ s with tenant := (change.compensating.bind s.tenant.exec).getD s.tenant },
        .error .databaseError)) := by
  unfold writeCatalog
  cases faulty with
  | true =>
    refine Or.inr ⟨Or.inl rfl, ?_⟩
    cases change.compensating.bind s.tenant.exec <;> rfl
  | false =>
    cases hwrite : change.write s.catalog with
    | some catalog => exact Or.inl ⟨rfl, catalog, rfl, rfl⟩
    | none =>
      refine Or.inr ⟨Or.inr rfl, ?_⟩
      cases change.compensating.bind s.tenant.exec <;> rfl

/-- A call leaves both databases alone, or its DDL was accepted and the catalog write failed, or both
writes went through. -/
theorem call_cases (svc : Service) (s : State) (fault : Option Fault) (actor : Uuid)
    (requestId : String) :
    Untouched s (svc.call s fault actor requestId) ∨
    ∃ plan ten',
      (hasPermission s.tables s.now actor svc.permission svc.organization none = true ∧
        svc.plan = .ok plan ∧ s.tenant.exec plan.change.ddl = some ten' ∧ fault ≠ some .ddl) ∧
      (Undone s fault plan.change ten' (svc.call s fault actor requestId) ∨
        Written s svc fault actor requestId plan.change ten'
          (svc.call s fault actor requestId)) := by
  unfold Service.call
  split
  · -- denied
    left
    split
    · exact ⟨rfl, rfl, Nat.le_refl _, by simp⟩
    · rename_i s' hrec
      obtain ⟨-, audit, rfl⟩ := record_some hrec
      exact ⟨rfl, rfl, Nat.le_refl _, by simp⟩
  rename_i hperm
  have hperm' : hasPermission s.tables s.now actor svc.permission svc.organization none = true := by
    simpa using hperm
  split
  · exact Or.inl ⟨rfl, rfl, Nat.le_refl _, by simp⟩
  rename_i plan hplan
  unfold applyChange
  cases hddl : executeTenantDdl s.tenant (fault == some .ddl) plan.change.ddl with
  | none => exact Or.inl ⟨rfl, rfl, Nat.le_add_right _ _, by simp⟩
  | some ten' =>
    right
    have hexec : s.tenant.exec plan.change.ddl = some ten' ∧ fault ≠ some .ddl := by
      unfold executeTenantDdl at hddl
      split at hddl
      · cases hddl
      · rename_i hf
        exact ⟨hddl, by simpa using hf⟩
    refine ⟨plan, ten', ⟨hperm', hplan, hexec⟩, ?_⟩
    dsimp only
    rcases writeCatalog_cases { s with nextUuid := s.nextUuid + 2, tenant := ten' }
        (fault == some .catalogWrite) plan.change with ⟨hf, catalog, hwrite, hout⟩ | ⟨hf, hout⟩
    · right
      rw [hout]
      have hnone : fault = none := by
        cases fault with
        | none => rfl
        | some f => cases f with
          | ddl => exact absurd rfl hexec.2
          | catalogWrite => simp at hf
      dsimp only
      split
      · rename_i hrec
        exact ⟨hnone, hwrite, rfl, rfl, Or.inr (record_none hrec)⟩
      · rename_i s' hrec
        obtain ⟨-, audit, rfl⟩ := record_some hrec
        exact ⟨hnone, hwrite, rfl, rfl, Or.inl rfl⟩
    · left
      rw [hout]
      exact ⟨hf.imp (by simp) id, rfl, rfl, rfl, by simp⟩

/-! ## The views' lookups -/

theorem getMemberTenantDatabase_some {s : State} {user id : Uuid} {d : TenantDatabase}
    {organization : Uuid} (h : getMemberTenantDatabase s user id = some (d, organization)) :
    d ∈ s.catalog.databases ∧ d.id = id := by
  simp only [getMemberTenantDatabase, Option.bind_eq_bind, Option.bind_eq_some_iff] at h
  obtain ⟨d', hd', organization', -, h⟩ := h
  split at h
  · cases h
    exact ⟨List.mem_of_find?_eq_some hd', by simpa using List.find?_some hd'⟩
  · cases h

theorem getMemberTable_some {s : State} {user id : Uuid} {t : DBTable} {organization : Uuid}
    (h : getMemberTable s user id = some (t, organization)) :
    t ∈ s.catalog.tables ∧ t.id = id := by
  simp only [getMemberTable, Option.bind_eq_bind, Option.bind_eq_some_iff] at h
  obtain ⟨t', ht', ⟨d, organization'⟩, -, h⟩ := h
  cases h
  exact ⟨List.mem_of_find?_eq_some ht', by simpa using List.find?_some ht'⟩

theorem getMemberColumn_some {s : State} {user id : Uuid} {c : DBColumn} {t : DBTable}
    {organization : Uuid} (h : getMemberColumn s user id = some (c, t, organization)) :
    c ∈ s.catalog.columns ∧ c.id = id ∧ t ∈ s.catalog.tables ∧ t.id = c.table := by
  simp only [getMemberColumn, Option.bind_eq_bind, Option.bind_eq_some_iff] at h
  obtain ⟨c', hc', ⟨t', organization'⟩, ht, h⟩ := h
  cases h
  obtain ⟨htmem, htid⟩ := getMemberTable_some ht
  exact ⟨List.mem_of_find?_eq_some hc', by simpa using List.find?_some hc', htmem, htid⟩

/-- The service calls a view can make, with the rows its lookups found. -/
inductive SchemaRequest.Resolved (s : State) : SchemaRequest → Service → Prop where
  | createTenantDatabase {projectId name} (project : Project) :
    Resolved s (.createTenantDatabase projectId name)
      (Databases.createTenantDatabase s.nextUuid project name)
  | createTable {id name} (organization : Uuid) (d : TenantDatabase)
    (hd : d ∈ s.catalog.databases) (hid : d.id = id) :
    Resolved s (.createTable id name) (Databases.createTable s.nextUuid organization d name)
  | addColumn {id spec} (organization : Uuid) (t : DBTable) (ht : t ∈ s.catalog.tables)
    (hid : t.id = id) :
    Resolved s (.addColumn id spec) (Databases.addColumn s.nextUuid organization t spec)
  | addForeignKey {tableId columnId rtId rcId onDelete} (organization : Uuid) (c : DBColumn)
    (t rt : DBTable) (rc : DBColumn) (hc : c ∈ s.catalog.columns) (hcid : c.id = columnId)
    (ht : t ∈ s.catalog.tables) (htid : t.id = c.table) (hrt : rt ∈ s.catalog.tables)
    (hrtid : rt.id = rtId) (hrc : rc ∈ s.catalog.columns) (hrcid : rc.id = rcId) :
    Resolved s (.addForeignKey tableId columnId rtId rcId onDelete)
      (Databases.addForeignKey s.nextUuid s.catalog organization c t rt rc onDelete)
  | deleteTable {id} (organization : Uuid) (t : DBTable) (ht : t ∈ s.catalog.tables)
    (hid : t.id = id) :
    Resolved s (.deleteTable id) (Databases.deleteTable organization t)
  | deleteTenantDatabase {id} (organization : Uuid) (d : TenantDatabase)
    (hd : d ∈ s.catalog.databases) (hid : d.id = id) :
    Resolved s (.deleteTenantDatabase id) (Databases.deleteTenantDatabase organization d)

theorem resolve_ok {s : State} {actor : Uuid} {r : SchemaRequest} {svc : Service}
    (h : r.resolve s actor = .ok svc) : r.Resolved s svc := by
  cases r with
  | createTenantDatabase projectId name =>
    simp only [SchemaRequest.resolve] at h
    split at h
    · cases h
    · cases h
      exact .createTenantDatabase _
  | createTable id name =>
    simp only [SchemaRequest.resolve] at h
    split at h
    · cases h
    · rename_i d organization hd
      cases h
      obtain ⟨hmem, hid⟩ := getMemberTenantDatabase_some hd
      exact .createTable organization d hmem hid
  | addColumn id spec =>
    simp only [SchemaRequest.resolve] at h
    split at h
    · cases h
    · rename_i t organization ht
      cases h
      obtain ⟨hmem, hid⟩ := getMemberTable_some ht
      exact .addColumn organization t hmem hid
  | addForeignKey tableId columnId rtId rcId onDelete =>
    simp only [SchemaRequest.resolve] at h
    split at h
    · cases h
    split at h
    · cases h
    rename_i c t organization hc
    split at h
    · cases h
    split at h
    · cases h
    rename_i rt hrt
    split at h
    · cases h
    rename_i rc _ _ hrc
    cases h
    obtain ⟨hcmem, hcid, htmem, htid⟩ := getMemberColumn_some hc
    obtain ⟨hrcmem, hrcid, -, -⟩ := getMemberColumn_some hrc
    have hrtp := List.find?_some hrt
    simp only [Bool.and_eq_true, beq_iff_eq] at hrtp
    exact .addForeignKey organization c t rt rc hcmem hcid htmem htid
      (List.mem_of_find?_eq_some hrt) hrtp.1 hrcmem hrcid
  | deleteTable id =>
    simp only [SchemaRequest.resolve] at h
    split at h
    · cases h
    · rename_i t organization ht
      cases h
      obtain ⟨hmem, hid⟩ := getMemberTable_some ht
      exact .deleteTable organization t hmem hid
  | deleteTenantDatabase id =>
    simp only [SchemaRequest.resolve] at h
    split at h
    · cases h
    · rename_i d organization hd
      cases h
      obtain ⟨hmem, hid⟩ := getMemberTenantDatabase_some hd
      exact .deleteTenantDatabase organization d hmem hid

/-! ## Every change a view can resolve to -/

/-- What holds of the two databases together. -/
structure Inv (s : State) : Prop where
  wellFormed : WellFormed s.catalog s.nextUuid
  agrees : Agrees s.catalog s.tenant
  valid : s.tenant.Valid

/-- A deletion takes no foreign-key row away whose constraint stays. -/
def Unsevered (s : State) (r : SchemaRequest) : Prop :=
  ∀ gone ∈ r.deletes, ∀ fk ∈ s.catalog.foreignKeys, s.catalog.severs gone fk = false

theorem columnDdl_ok {fresh : Uuid} {t : DBTable} {spec : ColumnSpec} {x : PhysicalColumn}
    (h : columnDdl t spec = .ok x) : x = t.physicalColumn (newColumn fresh t spec) := by
  unfold columnDdl at h
  split at h
  · cases h
  split at h
  · cases h
  rename_i type htype
  split at h
  · cases h
  rename_i default hdefault
  cases h
  rw [columnTypeSql_ok htype, defaultClauseSql_ok hdefault]
  rfl

theorem validateForeignKey_ok {cat : Catalog} {c : DBColumn} {t rt : DBTable} {rc : DBColumn}
    {onDelete : OnDelete} (h : validateForeignKey cat c t rt rc onDelete = .ok ()) :
    rt.tenantDatabase = t.tenantDatabase ∧ (rc.isUnique = true ∨ rc.isPrimaryKey = true) ∧
      c.dataType = rc.dataType := by
  unfold validateForeignKey at h
  split at h
  · cases h
  rename_i hdb
  split at h
  · cases h
  rename_i hunique
  split at h
  · cases h
  rename_i htype
  refine ⟨not_not.1 hdb, ?_, not_not.1 htype⟩
  rw [Bool.not_eq_true', Bool.not_eq_false, Bool.or_eq_true] at hunique
  exact hunique

/-- Every catalog write keeps the catalog's own invariant. -/
theorem SchemaRequest.Resolved.wellFormed_write {s : State} (hw : WellFormed s.catalog s.nextUuid)
    {r : SchemaRequest} {svc : Service} (hr : r.Resolved s svc) {plan : Plan}
    (h : svc.plan = .ok plan) {cat' : Catalog} (hwrite : plan.change.write s.catalog = some cat') :
    WellFormed cat' (s.nextUuid + 2) := by
  cases hr with
  | createTenantDatabase project =>
    simp only [Databases.createTenantDatabase] at h
    split at h
    · cases h
    cases h
    exact hw.insertDatabase rfl hwrite
  | createTable organization d hd hid =>
    simp only [Databases.createTable] at h
    split at h
    · cases h
    cases h
    exact hw.insertTable rfl rfl rfl hwrite
  | addColumn organization t ht hid =>
    simp only [Databases.addColumn] at h
    split at h
    · cases h
    cases h
    exact hw.insertColumn rfl hwrite
  | addForeignKey organization c t rt rc hc hcid ht htid hrt hrtid hrc hrcid =>
    simp only [Databases.addForeignKey] at h
    split at h
    · cases h
    rename_i hvalid
    cases h
    exact hw.insertForeignKey ⟨hc, rfl, ht, htid, hrt, rfl, hrc, rfl⟩
      (validateForeignKey_ok hvalid).1 hwrite
  | deleteTable organization t ht hid =>
    cases h
    cases hwrite
    exact (hw.deleteTables _).mono (Nat.le_add_right _ 2)
  | deleteTenantDatabase organization d hd hid =>
    cases h
    cases hwrite
    exact (hw.deleteDatabase d).mono (Nat.le_add_right _ 2)

/-- What each database keeps by itself, whatever the services do. -/
structure Sound (s : State) : Prop where
  wellFormed : WellFormed s.catalog s.nextUuid
  valid : s.tenant.Valid

theorem sound_handle {s : State} (hs : Sound s) (fault : Option Fault) (actor : Uuid)
    (requestId : String) (r : SchemaRequest) : Sound (handle s fault actor requestId r).1 := by
  unfold handle
  cases hr : r.resolve s actor with
  | error e => exact hs
  | ok svc =>
    dsimp only
    rcases call_cases svc s fault actor requestId with
      ⟨hcat, hten, hnext, -⟩ | ⟨plan, ten', ⟨-, hplan, hexec, -⟩, hout⟩
    · exact ⟨hcat ▸ hs.wellFormed.mono hnext, hten ▸ hs.valid⟩
    have hvalid := hs.valid.exec hexec
    rcases hout with ⟨-, hcat, hten, hnext, -⟩ | ⟨-, hwrite, hten, hnext, -⟩
    · refine ⟨hnext ▸ hcat ▸ hs.wellFormed.mono (Nat.le_add_right _ 2), ?_⟩
      rw [hten]
      cases hundo : plan.change.compensating.bind ten'.exec with
      | none => exact hvalid
      | some ten'' =>
        obtain ⟨d, -, hd⟩ := Option.bind_eq_some_iff.1 hundo
        exact hvalid.exec hd
    · exact ⟨hnext ▸ (resolve_ok hr).wellFormed_write hs.wellFormed hplan hwrite, hten ▸ hvalid⟩

theorem sound_step {s : State} (a : Action) (hs : Sound s) : Sound (step s a) := by
  cases a with
  | request fault actor requestId r => exact sound_handle hs fault actor requestId r
  | administer memberships projects roleAssignments => exact ⟨hs.wellFormed, hs.valid⟩
  | advance seconds => exact ⟨hs.wellFormed, hs.valid⟩

/-- Where both writes go through they keep the agreement. -/
theorem SchemaRequest.Resolved.agrees_write {s : State} (hs : Inv s) {r : SchemaRequest}
    {svc : Service} (hr : r.Resolved s svc) {plan : Plan} (h : svc.plan = .ok plan)
    (hkept : Unsevered s r) {ten' : Tenant} {cat' : Catalog}
    (hexec : s.tenant.exec plan.change.ddl = some ten')
    (hwrite : plan.change.write s.catalog = some cat') : Agrees cat' ten' := by
  have hw := hs.wellFormed
  cases hr with
  | createTenantDatabase project =>
    simp only [Databases.createTenantDatabase] at h
    split at h
    · cases h
    cases h
    exact hs.agrees.insertDatabase hexec hwrite
  | createTable organization d hd hid =>
    simp only [Databases.createTable] at h
    split at h
    · cases h
    cases h
    exact hs.agrees.insertTable hw rfl rfl rfl rfl hexec hwrite
  | addColumn organization t ht hid =>
    simp only [Databases.addColumn] at h
    split at h
    · cases h
    rename_i x hx
    obtain rfl : x = t.physicalColumn (newColumn s.nextUuid t _) := columnDdl_ok hx
    cases h
    exact hs.agrees.insertColumn hw rfl ht rfl hexec hwrite
  | addForeignKey organization c t rt rc hc hcid ht htid hrt hrtid hrc hrcid =>
    simp only [Databases.addForeignKey] at h
    split at h
    · cases h
    cases h
    exact hs.agrees.insertForeignKey hw ⟨hc, rfl, ht, htid, hrt, rfl, hrc, rfl⟩ hexec hwrite
  | deleteTable organization t ht hid =>
    cases h
    cases hwrite
    subst hid
    exact hs.agrees.deleteTable hw ht (hkept _ rfl) hexec
  | deleteTenantDatabase organization d hd hid =>
    cases h
    cases hwrite
    subst hid
    exact hs.agrees.deleteDatabase hw (hkept _ rfl) hexec

/-- A creation has a compensation, which undoes its DDL; a deletion has none, and its catalog write
goes through. -/
theorem SchemaRequest.Resolved.undo {s : State} (hv : s.tenant.Valid) {r : SchemaRequest}
    {svc : Service} (hr : r.Resolved s svc) {plan : Plan} (h : svc.plan = .ok plan) {ten' : Tenant}
    (hexec : s.tenant.exec plan.change.ddl = some ten') :
    (r.deletes = none ∧ plan.change.compensating.bind ten'.exec = some s.tenant) ∨
      (r.deletes ≠ none ∧ (plan.change.write s.catalog).isSome = true) := by
  cases hr with
  | createTenantDatabase project =>
    simp only [Databases.createTenantDatabase] at h
    split at h
    · cases h
    cases h
    exact Or.inl ⟨rfl, Tenant.undo_createSchema hv hexec⟩
  | createTable organization d hd hid =>
    simp only [Databases.createTable] at h
    split at h
    · cases h
    cases h
    exact Or.inl ⟨rfl, Tenant.undo_createTable hv hexec⟩
  | addColumn organization t ht hid =>
    simp only [Databases.addColumn] at h
    split at h
    · cases h
    rename_i x hx
    obtain rfl : x = t.physicalColumn (newColumn s.nextUuid t _) := columnDdl_ok hx
    cases h
    exact Or.inl ⟨rfl, Tenant.undo_addColumn hv hexec⟩
  | addForeignKey organization c t rt rc hc hcid ht htid hrt hrtid hrc hrcid =>
    simp only [Databases.addForeignKey] at h
    split at h
    · cases h
    cases h
    exact Or.inl ⟨rfl, Tenant.undo_addForeignKey hexec⟩
  | deleteTable organization t ht hid =>
    cases h
    exact Or.inr ⟨by simp [SchemaRequest.deletes], rfl⟩
  | deleteTenantDatabase organization d hd hid =>
    cases h
    exact Or.inr ⟨by simp [SchemaRequest.deletes], rfl⟩

/-- The names in the event of a resolved call fit the log, whatever it is about. -/
theorem SchemaRequest.Resolved.done_fits {s : State} {r : SchemaRequest} {svc : Service}
    (hr : r.Resolved s svc) (actor : Uuid) (requestId : String) :
    (svc.done actor requestId).fits = varcharFits 64 requestId := by
  cases hr with
  | createTenantDatabase =>
    exact fits_eq (by decide : varcharFits 100 "database.create" = true)
      (by decide : varcharFits 100 "tenant_database" = true)
  | createTable =>
    exact fits_eq (by decide : varcharFits 100 "database.table.create" = true)
      (by decide : varcharFits 100 "db_table" = true)
  | addColumn =>
    exact fits_eq (by decide : varcharFits 100 "database.column.create" = true)
      (by decide : varcharFits 100 "db_table" = true)
  | addForeignKey =>
    exact fits_eq (by decide : varcharFits 100 "database.foreign_key.create" = true)
      (by decide : varcharFits 100 "db_column" = true)
  | deleteTable =>
    exact fits_eq (by decide : varcharFits 100 "database.table.delete" = true)
      (by decide : varcharFits 100 "db_table" = true)
  | deleteTenantDatabase =>
    exact fits_eq (by decide : varcharFits 100 "database.drop" = true)
      (by decide : varcharFits 100 "tenant_database" = true)

end Databases
