import IntraCloud.Databases.Concurrent
import IntraCloud.Databases.Proofs.ServicesProofs
import IntraCloud.Databases.Proofs.ViewProofs

/-!
# The invariant of a race

While a request is between its DDL and its catalog write the tenant database is ahead of the catalog
by what the DDL did. The invariant says which tables and columns there are then, in terms of the rows
of both the catalog and the plans under way, and what each client may rely on of the rows it has
looked up while the other one works.
-/

namespace Databases

open Permissions Relational

/-- What the stage of a request is carrying out. -/
def Stage.plan? : Stage → Option Plan
  | .planned plan | .applied plan | .undoing plan => some plan
  | .waiting | .finished _ => none

/-- The plan whose DDL has gone through and that is neither written nor undone. -/
def Stage.made : Stage → Option Plan
  | .applied plan | .undoing plan => some plan
  | .waiting | .planned _ | .finished _ => none

theorem Stage.plan?_of_made {stage : Stage} {plan : Plan} (h : stage.made = some plan) :
    stage.plan? = some plan := by
  cases stage with
  | applied | undoing => exact h
  | waiting | planned | finished => cases h

/-- The ids of the rows a plan inserts. -/
def Plan.ids : Plan → List Uuid
  | .createTable t pk => [t.id, pk.id]
  | .addColumn _ c _ _ => [c.id]
  | _ => []

/-- What a plan has from the request it was decided on. -/
def SchemaRequest.Decides (r : SchemaRequest) : Plan → Prop
  | .createTable t pk => (∃ id name, r = .createTable id name) ∧ pk.table = t.id ∧
      t.physicalColumn pk = Tenant.idColumn ⟨t.tenantDatabase⟩ t.name
  | .addColumn t c _ column => ∃ spec, r = .addColumn t.id spec ∧ c.table = t.id ∧
      c.name = spec.name ∧ c.isUnique = spec.isUnique ∧ column = t.physicalColumn c ∧
      column.type = spec.type ∧ Catalog.numbersFit c = spec.numbersFit
  | .addForeignKey fk c t rt rc => rt.tenantDatabase = t.tenantDatabase ∧
      ∃ tableId, r = .addForeignKey tableId c.id rt.id rc.id fk.onDelete
  | .deleteTable t => r = .deleteTable t.id
  | _ => False

/-- The row is in the catalog and the other client is not deleting it. -/
def Kept (cat : Catalog) (other : Option Plan) (t : DBTable) : Prop :=
  t ∈ cat.tables ∧ other ≠ some (.deleteTable t)

/-- The table of the row is gone, no other row has its id, and the other client deletes. -/
def Gone (s : State) (you : Task) (t : DBTable) : Prop :=
  t.physical ∉ s.tenant.tables ∧ (∀ a ∈ s.catalog.tables, a.id = t.id → a = t) ∧
    you.request.deletes ≠ none

/-- A table row looked up earlier is kept or gone. -/
def Known (s : State) (you : Task) (t : DBTable) : Prop :=
  Kept s.catalog you.stage.made t ∨ Gone s you t

/-- The table rows there are: those of the catalog that no client is deleting, and those under way. -/
def HasTable (cat : Catalog) (p q : Option Plan) (t : DBTable) : Prop :=
  (t ∈ cat.tables ∧ p ≠ some (.deleteTable t) ∧ q ≠ some (.deleteTable t)) ∨
    (∃ pk, p = some (.createTable t pk)) ∨ ∃ pk, q = some (.createTable t pk)

/-- The plan inserts the column row. -/
def Inserts (p : Option Plan) (c : DBColumn) : Prop :=
  (∃ t, p = some (.createTable t c)) ∨ ∃ t index column, p = some (.addColumn t c index column)

/-- The column rows there are: those of the catalog and those under way. -/
def HasColumn (cat : Catalog) (p q : Option Plan) (c : DBColumn) : Prop :=
  c ∈ cat.columns ∨ Inserts p c ∨ Inserts q c

/-- What holds of one client's request, the other one being `you`. -/
structure Own (s : State) (me you : Task) : Prop where
  decided : ∀ plan, me.stage.plan? = some plan → me.request.Decides plan
  fresh : ∀ plan, me.stage.plan? = some plan → ∀ i ∈ plan.ids, i < s.nextUuid ∧
    (∀ t ∈ s.catalog.tables, t.id ≠ i) ∧ ∀ c ∈ s.catalog.columns, c.id ≠ i
  adding : ∀ t c index column, me.stage.plan? = some (.addColumn t c index column) → Known s you t
  dropping : ∀ t, me.stage = .planned (.deleteTable t) → Known s you t
  dropped : ∀ t, me.stage.made = some (.deleteTable t) → Kept s.catalog you.stage.made t
  referring : ∀ fk c t rt rc, me.stage = .planned (.addForeignKey fk c t rt rc) →
    (c ∈ s.catalog.columns ∧ t ∈ s.catalog.tables ∧ t.id = c.table ∧ rt ∈ s.catalog.tables ∧
      rc ∈ s.catalog.columns) ∨ you.request.deletes ≠ none
  /-- Nothing refers to a table under way. -/
  created : ∀ t pk, me.stage.made = some (.createTable t pk) →
    ∀ fk ∈ s.tenant.foreignKeys, (fk.schema, fk.refTable) ≠ t.physical
  /-- Nothing refers to a column under way whose row cannot be written. -/
  added : ∀ t c index column, me.stage.made = some (.addColumn t c index column) →
    Kept s.catalog you.stage.made t → Catalog.numbersFit c = false →
      s.tenant.referencedColumn ⟨t.tenantDatabase⟩ t.name c.name = false
  /-- Only the numbers of a column can be refused while its table is there. -/
  refused : ∀ t c index column, me.stage = .undoing (.addColumn t c index column) →
    Kept s.catalog you.stage.made t → Catalog.numbersFit c = false
  deleted : ∀ t, me.stage ≠ .undoing (.deleteTable t)
  finished : ∀ t pk, me.stage = .finished (some (.createTable t pk)) →
    t ∈ s.catalog.tables ∨ you.stage = .finished (some (.deleteTable t))

/-- Only the tenant database has changed since `s₀`, and a decided request passed its checks there. -/
structure Still (s₀ s : State) (me you : Task) : Prop where
  state : s = { s₀ with tenant := s.tenant, nextUuid := s.nextUuid }
  mine : me.stage ≠ .waiting → me.request.passes s₀ me.actor = true
  yours : you.stage ≠ .waiting → you.request.passes s₀ you.actor = true

theorem Still.advance {s₀ s s' : State} {me you : Task} {stage : Stage} (h : Still s₀ s me you)
    (hs' : s' = { s with tenant := s'.tenant, nextUuid := s'.nextUuid })
    (hpasses : me.request.passes s₀ me.actor = true) : Still s₀ s' { me with stage } you := by
  refine ⟨?_, fun _ => hpasses, h.yours⟩
  rw [hs', h.state]

/-- What holds of the two databases while two clients work on them. -/
structure Together (s₀ s : State) (me you : Task) : Prop where
  rows : TableRows s.catalog s.nextUuid
  valid : s.tenant.Valid
  view : Matches (HasTable s.catalog me.stage.made you.stage.made)
    (HasColumn s.catalog me.stage.made you.stage.made) s.tenant
  disjoint : ∀ p q, me.stage.plan? = some p → you.stage.plan? = some q → ∀ i ∈ p.ids, i ∉ q.ids
  still : me.stage.isFinished = false → you.stage.isFinished = false → Still s₀ s me you
  mine : Own s me you
  yours : Own s you me

theorem hasTable_symm {cat : Catalog} {p q : Option Plan} {t : DBTable} :
    HasTable cat p q t ↔ HasTable cat q p t := by
  unfold HasTable
  constructor <;> rintro (⟨h, h1, h2⟩ | h | h) <;> simp_all

theorem hasColumn_symm {cat : Catalog} {p q : Option Plan} {c : DBColumn} :
    HasColumn cat p q c ↔ HasColumn cat q p c := by
  unfold HasColumn
  constructor <;> rintro (h | h | h) <;> simp_all

section Under

variable {cat : Catalog} {q : Option Plan} {t a : DBTable} {c pk : DBColumn}

theorem hasTable_createTable :
    HasTable cat (some (.createTable t pk)) q a ↔ HasTable cat none q a ∨ a = t := by
  have hp : (∃ x, some (Plan.createTable t pk) = some (.createTable a x)) ↔ a = t := by
    simp [eq_comm]
  unfold HasTable
  rw [hp]
  simp only [ne_eq, reduceCtorEq, Option.some.injEq, not_false_eq_true, true_and, exists_false,
    false_or]
  exact ⟨fun h => h.elim (fun h => Or.inl (Or.inl h))
      (fun h => h.elim Or.inr fun h => Or.inl (Or.inr h)),
    fun h => h.elim (fun h => h.imp_right Or.inr) fun h => Or.inr (Or.inl h)⟩

theorem hasTable_deleteTable (hq : ∀ x, q ≠ some (.createTable t x)) :
    HasTable cat (some (.deleteTable t)) q a ↔ HasTable cat none q a ∧ a ≠ t := by
  unfold HasTable
  simp only [ne_eq, reduceCtorEq, Option.some.injEq, not_false_eq_true, true_and, exists_false,
    false_or, Plan.deleteTable.injEq, eq_comm (a := t)]
  constructor
  · rintro (⟨ha, hne, hq'⟩ | ⟨x, hx⟩)
    · exact ⟨Or.inl ⟨ha, hq'⟩, hne⟩
    · exact ⟨Or.inr ⟨x, hx⟩, fun heq => hq x (heq ▸ hx)⟩
  · rintro ⟨⟨ha, hq'⟩ | hx, hne⟩
    · exact Or.inl ⟨ha, hne, hq'⟩
    · exact Or.inr hx

theorem hasTable_addColumn {i : Option DBIndex} {x : PhysicalColumn} :
    HasTable cat (some (.addColumn t c i x)) q a ↔ HasTable cat none q a := by
  simp [HasTable]

theorem hasTable_addForeignKey {fk : DBForeignKey} {rt : DBTable} {rc : DBColumn} :
    HasTable cat (some (.addForeignKey fk c t rt rc)) q a ↔ HasTable cat none q a := by
  simp [HasTable]

theorem hasColumn_createTable :
    HasColumn cat (some (.createTable t pk)) q c ↔ HasColumn cat none q c ∨ c = pk := by
  have hp : Inserts (some (.createTable t pk)) c ↔ c = pk := by simp [Inserts, eq_comm]
  have hnone : ¬ Inserts none c := by simp [Inserts]
  unfold HasColumn
  rw [hp]
  tauto

theorem hasColumn_addColumn {i : Option DBIndex} {x : PhysicalColumn} :
    HasColumn cat (some (.addColumn t pk i x)) q c ↔ HasColumn cat none q c ∨ c = pk := by
  have hp : Inserts (some (.addColumn t pk i x)) c ↔ c = pk := by simp [Inserts, eq_comm]
  have hnone : ¬ Inserts none c := by simp [Inserts]
  unfold HasColumn
  rw [hp]
  tauto

theorem hasColumn_addForeignKey {fk : DBForeignKey} {b : DBColumn} {rt : DBTable} {rc : DBColumn} :
    HasColumn cat (some (.addForeignKey fk b t rt rc)) q c ↔ HasColumn cat none q c := by
  simp [HasColumn, Inserts]

theorem hasColumn_deleteTable :
    HasColumn cat (some (.deleteTable t)) q c ↔ HasColumn cat none q c := by
  simp [HasColumn, Inserts]

end Under

theorem Together.symm {s₀ s : State} {me you : Task} (h : Together s₀ s me you) :
    Together s₀ s you me :=
  { rows := h.rows
    valid := h.valid
    view := h.view.congr (fun _ => hasTable_symm) (fun _ _ _ _ => hasColumn_symm)
    disjoint := fun p q hp hq i hi hj => h.disjoint q p hq hp i hj hi
    still := fun hme hyou => ⟨(h.still hyou hme).state, (h.still hyou hme).yours,
      (h.still hyou hme).mine⟩
    mine := h.yours
    yours := h.mine }

/-! ## What a step of one client leaves of the other's -/

section Frame

variable {s s' : State} {me you : Task} {stage : Stage}

/-- The foreign key refers to nothing of a plan under way. -/
def Foreign (s : State) (me : Task) (p : Option Plan) (fk : PhysicalForeignKey) : Prop :=
  (∀ t pk, p = some (.createTable t pk) → (fk.schema, fk.refTable) ≠ t.physical) ∧
    ∀ t c index column, p = some (.addColumn t c index column) →
      Kept s.catalog me.stage.made t → Catalog.numbersFit c = false →
        (fk.schema, fk.refTable, fk.refColumn) ≠ (⟨t.tenantDatabase⟩, t.name, c.name)

/-- What the other client keeps when `me` takes a step. -/
theorem Own.frame (h : Own s you me) (hnext : s.nextUuid ≤ s'.nextUuid)
    (htables : ∀ t ∈ s'.catalog.tables, t ∈ s.catalog.tables ∨
      ∀ plan, you.stage.plan? = some plan → t.id ∉ plan.ids)
    (hcolumns : ∀ c ∈ s'.catalog.columns, c ∈ s.catalog.columns ∨
      ∀ plan, you.stage.plan? = some plan → c.id ∉ plan.ids)
    (hkept : ∀ t, Kept s.catalog me.stage.made t → Kept s'.catalog stage.made t ∨
      you.stage.made ≠ some (.deleteTable t) ∧ Gone s' me t)
    (hback : me.request.deletes ≠ none →
      (∀ y ∈ s'.tenant.tables, y ∈ s.tenant.tables) ∧
      (∀ t ∈ s'.catalog.tables, t ∈ s.catalog.tables) ∧
      ∀ t, Kept s'.catalog stage.made t → Kept s.catalog me.stage.made t)
    (hrows : me.request.deletes = none → (∀ t ∈ s.catalog.tables, t ∈ s'.catalog.tables) ∧
      ∀ c ∈ s.catalog.columns, c ∈ s'.catalog.columns)
    (hfks : ∀ fk ∈ s'.tenant.foreignKeys, fk ∈ s.tenant.foreignKeys ∨
      Foreign s me you.stage.made fk)
    (hfinished : ∀ t, (t ∈ s.catalog.tables ∨ me.stage = .finished (some (.deleteTable t))) →
      t ∈ s'.catalog.tables ∨ stage = .finished (some (.deleteTable t))) :
    Own s' you { me with stage } := by
  have hknown : ∀ t, Known s me t → you.stage.made ≠ some (.deleteTable t) →
      Known s' { me with stage } t := by
    rintro t (hk | ⟨hgone, hids, hdel⟩) hne
    · rcases hkept t hk with hk' | ⟨-, hrest⟩
      · exact Or.inl hk'
      · exact Or.inr hrest
    · obtain ⟨hts, hrows, -⟩ := hback hdel
      exact Or.inr ⟨fun hmem => hgone (hts _ hmem), fun a ha => hids a (hrows a ha), hdel⟩
  have hstay : ∀ t, Known s me t → Kept s'.catalog stage.made t →
      Kept s.catalog me.stage.made t := by
    rintro t (hk | ⟨-, -, hdel⟩) hk'
    · exact hk
    · exact (hback hdel).2.2 t hk'
  refine
    { decided := h.decided
      fresh := fun plan hp i hi => ?_
      adding := fun t c index column hp => hknown t (h.adding t c index column hp) ?_
      dropping := fun t hp => hknown t (h.dropping t hp) (by rw [hp]; simp [Stage.made])
      dropped := fun t hp => ?_
      referring := fun fk c t rt rc hp => ?_
      created := fun t pk hp fk hfk => ?_
      added := fun t c index column hp hk hfit => ?_
      refused := fun t c index column hp hk => ?_
      deleted := h.deleted
      finished := fun t pk hp => hfinished t (h.finished t pk hp) }
  · -- fresh
    obtain ⟨hlt, ht, hc⟩ := h.fresh plan hp i hi
    refine ⟨Nat.lt_of_lt_of_le hlt hnext, fun t htm heq => ?_, fun c hcm heq => ?_⟩
    · rcases htables t htm with hmem | hnew
      · exact ht t hmem heq
      · exact hnew plan hp (heq ▸ hi)
    · rcases hcolumns c hcm with hmem | hnew
      · exact hc c hmem heq
      · exact hnew plan hp (heq ▸ hi)
  · -- adding
    intro hmade
    rw [Stage.plan?_of_made hmade] at hp
    cases hp
  · -- dropped
    rcases hkept t (h.dropped t hp) with hk | ⟨hne, -⟩
    · exact hk
    · exact absurd hp hne
  · -- referring
    rcases h.referring fk c t rt rc hp with ⟨hc, ht, hid, hrt, hrc⟩ | hdel
    · by_cases hdel : me.request.deletes = none
      · obtain ⟨hts, hcs⟩ := hrows hdel
        exact Or.inl ⟨hcs c hc, hts t ht, hid, hts rt hrt, hcs rc hrc⟩
      · exact Or.inr hdel
    · exact Or.inr hdel
  · -- created
    rcases hfks fk hfk with hold | hnew
    · exact h.created t pk hp fk hold
    · exact hnew.1 t pk hp
  · -- added
    have hk₀ := hstay t (h.adding t c index column (Stage.plan?_of_made hp)) hk
    have hold := Tenant.referencedColumn_eq_false.1 (h.added t c index column hp hk₀ hfit)
    refine Tenant.referencedColumn_eq_false.2 fun fk hfk h1 h2 h3 => ?_
    rcases hfks fk hfk with hmem | hnew
    · exact hold fk hmem h1 h2 h3
    · exact absurd (by rw [h1, h2, h3]) (hnew.2 t c index column hp hk₀ hfit)
  · -- refused
    have hp' : you.stage.plan? = some (.addColumn t c index column) := by rw [hp]; rfl
    exact h.refused t c index column hp (hstay t (h.adding t c index column hp') hk)

/-- A step that changes no row and no plan under way. -/
theorem Own.frame_idle (h : Own s you me) (hnext : s.nextUuid ≤ s'.nextUuid)
    (hcat : s'.catalog = s.catalog) (hten : s'.tenant = s.tenant)
    (hmade : stage.made = me.stage.made)
    (hfin : ∀ t, me.stage = .finished (some (.deleteTable t)) →
      stage = .finished (some (.deleteTable t))) :
    Own s' you { me with stage } := by
  refine h.frame hnext ?_ ?_ ?_ ?_ ?_ ?_ ?_
  · exact fun t ht => Or.inl (hcat ▸ ht)
  · exact fun c hc => Or.inl (hcat ▸ hc)
  · intro t hk
    rw [hcat, hmade]
    exact Or.inl hk
  · intro _
    rw [hcat, hmade, hten]
    exact ⟨fun _ hy => hy, fun _ ht => ht, fun _ hk => hk⟩
  · intro _
    rw [hcat]
    exact ⟨fun _ ht => ht, fun _ hc => hc⟩
  · exact fun fk hfk => Or.inl (hten ▸ hfk)
  · intro t ht
    rw [hcat]
    exact ht.imp_right (hfin t)

/-- The other client keeps what it relies on over a DDL. -/
theorem Own.frame_ddl {plan : Plan} {ten' : Tenant} (h : Own s you me)
    (hst : me.stage = .planned plan)
    (hkept : ∀ t, plan = .deleteTable t → you.stage.made ≠ some (.deleteTable t) ∧
      Gone { s with tenant := ten' } me t)
    (htables : me.request.deletes ≠ none → ∀ y ∈ ten'.tables, y ∈ s.tenant.tables)
    (hfks : ∀ fk ∈ ten'.foreignKeys, fk ∈ s.tenant.foreignKeys ∨ Foreign s me you.stage.made fk) :
    Own { s with tenant := ten' } you { me with stage := .applied plan } := by
  refine h.frame (Nat.le_refl _) (fun a ha => Or.inl ha) (fun c hc => Or.inl hc) ?_
    (fun hdel => ⟨htables hdel, fun _ ha => ha, ?_⟩) (fun _ => ⟨fun _ ha => ha, fun _ hc => hc⟩) hfks ?_
  · rintro a ⟨ha, -⟩
    by_cases hp : plan = .deleteTable a
    · exact Or.inr (hkept a hp)
    · exact Or.inl ⟨ha, fun heq => hp (Option.some.inj heq)⟩
  · rintro a ⟨ha, -⟩
    exact ⟨ha, by rw [hst]; exact fun heq => (nomatch heq)⟩
  · rintro a (ha | ha)
    · exact Or.inl ha
    · rw [hst] at ha
      cases ha

end Frame

/-! ## Taking the decision -/

/-- The rows a plan was decided on. -/
def Plan.Found (cat : Catalog) : Plan → Prop
  | .addColumn t _ _ _ | .deleteTable t => t ∈ cat.tables
  | .addForeignKey _ c t rt rc => c ∈ cat.columns ∧ t ∈ cat.tables ∧ t.id = c.table ∧
      rt ∈ cat.tables ∧ rc ∈ cat.columns
  | _ => True

theorem SchemaRequest.Resolved.decides {s : State} {r : SchemaRequest} {svc : Service} {plan : Plan}
    (hr : r.Resolved s svc) (hon : r.onTables = true) (h : svc.plan = .ok plan) :
    r.Decides plan ∧ (∀ i ∈ plan.ids, s.nextUuid ≤ i ∧ i < s.nextUuid + 2) ∧
      plan.Found s.catalog := by
  have hlt : s.nextUuid < s.nextUuid + 2 := Nat.lt_add_of_pos_right Nat.two_pos
  cases hr with
  | createTenantDatabase project => cases hon
  | createTable organization d hd hid =>
    simp only [Databases.createTable] at h
    split at h
    · cases h
    cases h
    refine ⟨⟨⟨_, _, rfl⟩, rfl, rfl⟩, fun i hi => ?_, trivial⟩
    simp only [Plan.ids, newTable, newPrimaryKey, List.mem_cons, List.not_mem_nil, or_false] at hi
    rcases hi with rfl | rfl
    · exact ⟨Nat.le_refl _, hlt⟩
    · exact ⟨Nat.le_succ _, Nat.lt_succ_self _⟩
  | addColumn organization t ht hid =>
    simp only [Databases.addColumn] at h
    split at h
    · cases h
    rename_i x hx
    obtain rfl : x = t.physicalColumn (newColumn s.nextUuid t _) := columnDdl_ok hx
    cases h
    refine ⟨⟨_, by rw [hid], rfl, rfl, rfl, rfl, rfl, rfl⟩, fun i hi => ?_, ht⟩
    simp only [Plan.ids, newColumn, List.mem_singleton] at hi
    rw [hi]
    exact ⟨Nat.le_refl _, hlt⟩
  | addForeignKey organization c t rt rc hc hcid ht htid hrt hrtid hrc hrcid =>
    simp only [Databases.addForeignKey] at h
    split at h
    · cases h
    rename_i hvalid
    cases h
    refine ⟨⟨(validateForeignKey_ok hvalid).1, _, by rw [hcid, hrtid, hrcid]; rfl⟩, fun i hi => ?_, hc, ht, htid, hrt,
      hrc⟩
    cases hi
  | deleteTable organization t ht hid =>
    cases h
    refine ⟨by rw [← hid]; rfl, fun i hi => ?_, ht⟩
    cases hi
  | deleteTenantDatabase organization d hd hid => cases hon

section Step

variable {s₀ s : State} {me you : Task} {plan : Plan}

/-- A row in the catalog is known, even while the other client is deleting it. -/
theorem Together.known (h : Together s₀ s me you) (hmade : me.stage.made = none) {t : DBTable}
    (ht : t ∈ s.catalog.tables) : Known s you t := by
  by_cases hk : you.stage.made = some (.deleteTable t)
  · right
    refine ⟨?_, ?_, ?_⟩
    · intro hmem
      obtain ⟨a, ha, heq⟩ := (h.view.tables _).1 hmem
      rw [hmade, hk] at ha
      rcases ha with ⟨ha, -, hne⟩ | ⟨_, ha⟩ | ⟨_, ha⟩
      · exact hne (by rw [h.rows.tableNames a ha t ht heq])
      · cases ha
      · cases ha
    · exact fun a ha heq => h.rows.tableIds a ha t ht heq
    · have hd : you.request = .deleteTable t.id := h.yours.decided _ (Stage.plan?_of_made hk)
      rw [hd]
      simp [SchemaRequest.deletes]
  · exact Or.inl ⟨ht, hk⟩

/-- The checks look neither at the tenant database nor at the ids they are given. -/
theorem SchemaRequest.passes_congr (r : SchemaRequest) (s : State) (actor : Uuid) (tenant : Tenant)
    (nextUuid : Uuid) : r.passes { s with tenant, nextUuid } actor = r.passes s actor := by
  cases r with
  | createTenantDatabase projectId name =>
    simp only [passes, resolve]
    rw [show getMemberProject { s with tenant, nextUuid } actor projectId =
      getMemberProject s actor projectId from rfl]
    cases getMemberProject s actor projectId with
    | none => rfl
    | some project =>
      simp only [Databases.createTenantDatabase]
      split <;> rfl
  | createTable id name =>
    simp only [passes, resolve]
    rw [show getMemberTenantDatabase { s with tenant, nextUuid } actor id =
      getMemberTenantDatabase s actor id from rfl]
    cases getMemberTenantDatabase s actor id with
    | none => rfl
    | some found =>
      simp only [Databases.createTable]
      cases validateIdentifier name "table name" <;> rfl
  | addColumn id spec =>
    simp only [passes, resolve]
    rw [show getMemberTable { s with tenant, nextUuid } actor id = getMemberTable s actor id from rfl]
    cases getMemberTable s actor id with
    | none => rfl
    | some found =>
      simp only [Databases.addColumn]
      cases columnDdl found.1 spec <;> rfl
  | addForeignKey tableId columnId rtId rcId onDelete =>
    simp only [passes, resolve]
    rw [show getMemberTable { s with tenant, nextUuid } actor tableId =
      getMemberTable s actor tableId from rfl]
    rw [show getMemberColumn { s with tenant, nextUuid } actor columnId =
      getMemberColumn s actor columnId from rfl]
    rw [show getMemberColumn { s with tenant, nextUuid } actor rcId =
      getMemberColumn s actor rcId from rfl]
    cases getMemberTable s actor tableId with
    | none => rfl
    | some found =>
      cases getMemberColumn s actor columnId with
      | none => rfl
      | some column =>
        dsimp only
        by_cases hown : column.1.table ≠ found.1.id
        · rw [if_pos hown, if_pos hown]
        · rw [if_neg hown, if_neg hown]
          cases s.catalog.tables.find? fun x =>
              x.id == rtId && x.tenantDatabase == found.1.tenantDatabase with
          | none => rfl
          | some rt =>
            cases getMemberColumn s actor rcId with
            | none => rfl
            | some rc =>
              simp only [Databases.addForeignKey]
              cases validateForeignKey s.catalog column.1 column.2.1 rt rc.1 onDelete <;> rfl
  | deleteTable id => rfl
  | deleteTenantDatabase id => rfl

/-- The lookups and checks. -/
theorem Together.decide (h : Together s₀ s me you) (hst : me.stage = .waiting)
    (hpasses : me.request.passes s me.actor = true) (hd : me.request.Decides plan)
    (hids : ∀ i ∈ plan.ids, s.nextUuid ≤ i ∧ i < s.nextUuid + 2) (hfound : plan.Found s.catalog) :
    Together s₀ { s with nextUuid := s.nextUuid + 2 } { me with stage := .planned plan } you := by
  have hmade : me.stage.made = none := by rw [hst]; rfl
  have hview := h.view
  rw [hmade] at hview
  refine
    { rows := h.rows.mono (Nat.le_add_right _ 2)
      valid := h.valid
      view := hview
      disjoint := fun p q hp hq i hi hiq => ?_
      still := fun _ hy => ?_
      mine := ?_
      yours := h.yours.frame_idle (Nat.le_add_right _ 2) rfl rfl hmade.symm
        (by rw [hst]; exact fun _ ht => (nomatch ht)) }
  · -- disjoint
    cases hp
    exact absurd (h.yours.fresh q hq i hiq).1 (Nat.not_lt.2 (hids i hi).1)
  · -- still
    have hs := h.still (by rw [hst]; rfl) hy
    rw [hs.state, SchemaRequest.passes_congr] at hpasses
    exact hs.advance rfl hpasses
  · refine
      { decided := fun p hp => ?_
        fresh := fun p hp i hi => ?_
        adding := fun t c index column hp => ?_
        dropping := fun t hp => ?_
        dropped := fun t hp => (nomatch hp)
        referring := fun fk c t rt rc hp => ?_
        created := fun t pk hp => (nomatch hp)
        added := fun t c index column hp => (nomatch hp)
        refused := fun t c index column hp => (nomatch hp)
        deleted := fun t hp => (nomatch hp)
        finished := fun t pk hp => (nomatch hp) }
    · cases hp
      exact hd
    · cases hp
      obtain ⟨hle, hlt⟩ := hids i hi
      exact ⟨hlt, fun t ht => Nat.ne_of_lt (Nat.lt_of_lt_of_le (h.rows.tableFresh t ht) hle),
        fun c hc => Nat.ne_of_lt (Nat.lt_of_lt_of_le (h.rows.columnFresh c hc) hle)⟩
    · cases hp
      exact h.known hmade hfound
    · cases hp
      exact h.known hmade hfound
    · cases hp
      exact Or.inl hfound

/-! ## The DDL -/

/-- A request whose DDL has gone through, given what the new plan needs. -/
theorem Own.apply {s' : State} (h : Own s me you) (hst : me.stage = .planned plan)
    (hcat : s'.catalog = s.catalog) (hnext : s'.nextUuid = s.nextUuid)
    (hadding : ∀ t c index column, plan = .addColumn t c index column → Known s' you t)
    (hdropped : ∀ t, plan = .deleteTable t → Kept s.catalog you.stage.made t)
    (hcreated : ∀ t pk, plan = .createTable t pk →
      ∀ fk ∈ s'.tenant.foreignKeys, (fk.schema, fk.refTable) ≠ t.physical)
    (hadded : ∀ t c index column, plan = .addColumn t c index column →
      s'.tenant.referencedColumn ⟨t.tenantDatabase⟩ t.name c.name = false) :
    Own s' { me with stage := .applied plan } you := by
  have hplan : me.stage.plan? = some plan := by rw [hst]; rfl
  refine
    { decided := fun p hp => ?_
      fresh := fun p hp => ?_
      adding := fun t c index column hp => hadding t c index column (Option.some.inj hp)
      dropping := fun t hp => (nomatch hp)
      dropped := fun t hp => ?_
      referring := fun fk c t rt rc hp => (nomatch hp)
      created := fun t pk hp => hcreated t pk (Option.some.inj hp)
      added := fun t c index column hp _ _ => hadded t c index column (Option.some.inj hp)
      refused := fun t c index column hp => (nomatch hp)
      deleted := fun t hp => (nomatch hp)
      finished := fun t pk hp => (nomatch hp) }
  · cases hp
    exact h.decided _ hplan
  · cases hp
    rw [hcat, hnext]
    exact h.fresh _ hplan
  · rw [hcat]
    exact hdropped t (Option.some.inj hp)

/-- The other client creates no table and adds no column to one with the id of a table under way. -/
theorem Together.table_ne (h : Together s₀ s me you) {t : DBTable} {pk : DBColumn}
    (hplan : me.stage.plan? = some (.createTable t pk)) :
    (∀ a q, you.stage.made = some (.createTable a q) → a.id ≠ t.id) ∧
      ∀ c, Inserts you.stage.made c → c.table ≠ t.id := by
  have htid : t.id ∈ (Plan.createTable t pk).ids := List.mem_cons_self
  have htable : ∀ a q, you.stage.made = some (.createTable a q) → a.id ≠ t.id := by
    intro a q hmade heq
    exact h.disjoint _ _ hplan (Stage.plan?_of_made hmade) _ htid (heq ▸ List.mem_cons_self)
  refine ⟨htable, ?_⟩
  rintro c (⟨a, hmade⟩ | ⟨a, index, column, hmade⟩) heq
  · obtain ⟨-, hlink, -⟩ := h.yours.decided _ (Stage.plan?_of_made hmade)
    exact htable a c hmade (hlink.symm.trans heq)
  · obtain ⟨spec, -, hlink, -⟩ := h.yours.decided _ (Stage.plan?_of_made hmade)
    rcases h.yours.adding a c index column (Stage.plan?_of_made hmade) with hk | ⟨-, -, hdel⟩
    · exact (h.mine.fresh _ hplan _ htid).2.1 a hk.1 (hlink.symm.trans heq)
    · obtain ⟨⟨id, name, hreq⟩, -⟩ := h.mine.decided _ hplan
      exact hdel (by rw [hreq]; rfl)

theorem Together.applyCreateTable {t : DBTable} {pk : DBColumn} {ten' : Tenant}
    (h : Together s₀ s me you) (hst : me.stage = .planned (.createTable t pk))
    (hexec : s.tenant.exec (.createTable ⟨t.tenantDatabase⟩ t.name) = some ten') :
    Together s₀ { s with tenant := ten' } { me with stage := .applied (.createTable t pk) } you := by
  have hplan : me.stage.plan? = some (.createTable t pk) := by rw [hst]; rfl
  have hmade : me.stage.made = none := by rw [hst]; rfl
  have hview := h.view
  rw [hmade] at hview
  obtain ⟨⟨id, name, hreq⟩, hlink, hcol⟩ := h.mine.decided _ hplan
  obtain ⟨hyouTable, hyouColumn⟩ := h.table_ne hplan
  have hnew := (h.mine.fresh _ hplan t.id List.mem_cons_self).2.1
  have hid : ∀ a, HasTable s.catalog none you.stage.made a → a.id ≠ t.id := by
    rintro a (⟨ha, -⟩ | ⟨_, ha⟩ | ⟨q, ha⟩)
    · exact hnew a ha
    · cases ha
    · exact hyouTable a q ha
  have hC : ∀ c, HasColumn s.catalog none you.stage.made c → c.table ≠ t.id := by
    rintro c (hc | (⟨_, hc⟩ | ⟨_, _, _, hc⟩) | hc)
    · obtain ⟨a, ha, haid⟩ := h.rows.columnTable c hc
      exact haid ▸ hnew a ha
    · cases hc
    · cases hc
    · exact hyouColumn c hc
  have hview' := hview.createTable hid hC hlink hcol hexec
  have hvalid := h.valid.exec hexec
  obtain ⟨-, hfree, rfl⟩ := Tenant.exec_createTable hexec
  have hnofk : ∀ fk ∈ s.tenant.foreignKeys, (fk.schema, fk.refTable) ≠ t.physical :=
    fun fk hfk heq => hfree (by rw [← DBTable.physical, ← heq]; exact h.valid.refTable_of_fk hfk)
  refine
    { rows := h.rows
      valid := hvalid
      view := hview'.congr (fun a => ?_) (fun _ c _ _ => ?_)
      disjoint := fun p q hp hq => h.disjoint p q (hplan.trans hp) hq
      still := fun _ hy =>
        have hs := h.still (by rw [hst]; rfl) hy
        hs.advance rfl (hs.mine (by simp [hst]))
      mine := h.mine.apply hst rfl rfl (by simp) (by simp)
        (fun _ _ hp => by cases hp; exact hnofk) (by simp)
      yours := ?_ }
  · exact hasTable_createTable
  · exact hasColumn_createTable
  · refine h.yours.frame_ddl hst (by simp) (fun hdel => ?_)
      (fun fk hfk => Or.inl hfk)
    exact absurd (by rw [hreq]; rfl) hdel

/-- The table of a known row is there only while the row is kept. -/
theorem Known.kept {t : DBTable} (h : Known s you t) (hmem : t.physical ∈ s.tenant.tables) :
    Kept s.catalog you.stage.made t := by
  rcases h with hk | ⟨hgone, -⟩
  · exact hk
  · exact absurd hmem hgone

theorem Together.applyAddColumn {t : DBTable} {c : DBColumn} {index : Option DBIndex}
    {column : PhysicalColumn} {ten' : Tenant} (h : Together s₀ s me you)
    (hst : me.stage = .planned (.addColumn t c index column))
    (hexec : s.tenant.exec (.addColumn column) = some ten') :
    Together s₀ { s with tenant := ten' }
      { me with stage := .applied (.addColumn t c index column) } you := by
  have hplan : me.stage.plan? = some (.addColumn t c index column) := by rw [hst]; rfl
  have hmade : me.stage.made = none := by rw [hst]; rfl
  have hview := h.view
  rw [hmade] at hview
  obtain ⟨spec, hreq, hlink, -, -, rfl, -⟩ := h.mine.decided _ hplan
  have hvalid := h.valid.exec hexec
  obtain ⟨hmem, hnew, hten⟩ := Tenant.exec_addColumn hexec
  have hk := (h.mine.adding t c index _ hplan).kept hmem
  have ht : HasTable s.catalog none you.stage.made t := Or.inl ⟨hk.1, by simp, hk.2⟩
  have hview' := hview.addColumn ht hlink hexec
  have href : ten'.referencedColumn ⟨t.tenantDatabase⟩ t.name c.name = false := by
    refine Tenant.referencedColumn_eq_false.2 fun fk hfk h1 h2 h3 => ?_
    rw [hten] at hfk
    obtain ⟨x, hx, hat⟩ := h.valid.refColumn_of_fk hfk
    rw [h1, h2, h3] at hat
    exact absurd hat (hnew x hx)
  refine
    { rows := h.rows
      valid := hvalid
      view := hview'.congr (fun a => hasTable_addColumn) (fun _ c _ _ => hasColumn_addColumn)
      disjoint := fun p q hp hq => h.disjoint p q (hplan.trans hp) hq
      still := fun _ hy =>
        have hs := h.still (by rw [hst]; rfl) hy
        hs.advance rfl (hs.mine (by simp [hst]))
      mine := h.mine.apply hst rfl rfl (fun _ _ _ _ hp => by cases hp; exact Or.inl hk)
        (by simp) (by simp)
        (fun _ _ _ _ hp => by cases hp; exact href)
      yours := h.yours.frame_ddl hst (by simp) (fun hdel => ?_)
        (fun fk hfk => Or.inl (by rw [hten] at hfk; exact hfk)) }
  exact absurd (by rw [hreq]; rfl) hdel

theorem Together.applyDeleteTable {t : DBTable} {ten' : Tenant} (h : Together s₀ s me you)
    (hst : me.stage = .planned (.deleteTable t))
    (hexec : s.tenant.exec (.dropTable ⟨t.tenantDatabase⟩ t.name) = some ten') :
    Together s₀ { s with tenant := ten' } { me with stage := .applied (.deleteTable t) } you := by
  have hplan : me.stage.plan? = some (.deleteTable t) := by rw [hst]; rfl
  have hmade : me.stage.made = none := by rw [hst]; rfl
  have hview := h.view
  rw [hmade] at hview
  have hreq : me.request = .deleteTable t.id := h.mine.decided _ hplan
  have hdel : me.request.deletes ≠ none := by
    rw [hreq]
    simp [SchemaRequest.deletes]
  have hvalid := h.valid.exec hexec
  obtain ⟨⟨hmem, -⟩, hten⟩ := Tenant.exec_dropTable.1 hexec
  have hk := (h.mine.dropping t hst).kept hmem
  have ht : HasTable s.catalog none you.stage.made t := Or.inl ⟨hk.1, by simp, hk.2⟩
  have hview' := hview.dropTable ht hexec
  have hother : ∀ x, you.stage.made ≠ some (.createTable t x) := by
    intro x hx
    have hfresh := h.yours.fresh _ (Stage.plan?_of_made hx) t.id List.mem_cons_self
    exact hfresh.2.1 t hk.1 rfl
  have hgone : t.physical ∉ ten'.tables := by
    rw [hten]
    simp [DBTable.physical]
  refine
    { rows := h.rows
      valid := hvalid
      view := hview'.congr (fun a => hasTable_deleteTable hother)
        (fun _ c _ _ => hasColumn_deleteTable)
      disjoint := fun p q hp hq => h.disjoint p q (hplan.trans hp) hq
      still := fun _ hy =>
        have hs := h.still (by rw [hst]; rfl) hy
        hs.advance rfl (hs.mine (by simp [hst]))
      mine := h.mine.apply hst rfl rfl (by simp)
        (fun _ hp => by cases hp; exact hk) (by simp)
        (by simp)
      yours := h.yours.frame_ddl hst (fun a hp => ?_) (fun _ y hy => ?_) (fun fk hfk => ?_) }
  · cases hp
    exact ⟨hk.2, hgone, fun a ha heq => h.rows.tableIds a ha t hk.1 heq, hdel⟩
  · rw [hten] at hy
    exact (List.mem_filter.1 hy).1
  · rw [hten] at hfk
    exact Or.inl (List.mem_filter.1 hfk).1

/-- Without a clash, a new foreign key refers to nothing the other client has under way. -/
theorem Together.foreign_of_not_clashes {fk : DBForeignKey} {c rc : DBColumn} {t rt : DBTable}
    (h : Together s₀ s me you) (hst : me.stage = .planned (.addForeignKey fk c t rt rc))
    (hclash : ¬ you.clashes s₀ me)
    (href : s.tenant.refersTo (t.physicalForeignKey c rt rc fk.onDelete) = true) :
    Foreign s me you.stage.made (t.physicalForeignKey c rt rc fk.onDelete) := by
  have hplan : me.stage.plan? = some (.addForeignKey fk c t rt rc) := by rw [hst]; rfl
  have hmade : me.stage.made = none := by rw [hst]; rfl
  have hview := h.view
  rw [hmade] at hview
  obtain ⟨hdb, tableId, hreq⟩ := h.mine.decided _ hplan
  have hphys : ((⟨t.tenantDatabase⟩, rt.name) : SchemaName × String) = rt.physical := by
    rw [DBTable.physical, hdb]
  constructor
  · -- the table under way would have the name of the referenced one
    intro a pk hmk heq
    have hyou := Stage.plan?_of_made hmk
    obtain ⟨⟨id, name, hyreq⟩, -⟩ := h.yours.decided _ hyou
    rcases h.mine.referring fk c t rt rc hst with ⟨-, -, -, hrt, -⟩ | hdel
    · have hart : a = rt := hview.names a rt (Or.inr (Or.inr ⟨pk, hmk⟩))
        (Or.inl ⟨hrt, by simp, by rw [hmk]; simp⟩) (heq.symm.trans hphys)
      exact (h.yours.fresh _ hyou a.id List.mem_cons_self).2.1 rt hrt (by rw [hart])
    · exact hdel (by rw [hyreq]; rfl)
  · intro a b index x hmk hk hfit heq
    have hyou := Stage.plan?_of_made hmk
    obtain ⟨spec, hyreq, hlink, hname, hunique, rfl, htype, hnumbers⟩ := h.yours.decided _ hyou
    rcases h.mine.referring fk c t rt rc hst with ⟨hc, ht, htid, hrt, hrc⟩ | hdel
    swap
    · exact hdel (by rw [hyreq]; rfl)
    simp only [DBTable.physicalForeignKey, Prod.mk.injEq] at heq
    obtain ⟨hschema, htable, hcolumn⟩ := heq
    have hview' : ∀ {y}, y ∈ s.catalog.tables → HasTable s.catalog none you.stage.made y :=
      fun hy => Or.inl ⟨hy, by simp, by rw [hmk]; simp⟩
    have hb : HasColumn s.catalog none you.stage.made b :=
      Or.inr (Or.inr (Or.inr ⟨a, index, _, hmk⟩))
    have hart : rt = a := hview.names rt a (hview' hrt) (hview' hk.1)
      (by rw [← hphys, DBTable.physical, hschema, htable])
    subst hart
    have hnoname : ∀ x ∈ s.catalog.columns, x.table = rt.id → x.name ≠ b.name := by
      intro x hx hown hxname
      have hxb : x = b := hview.columnNames rt x b (hview' hrt) (Or.inl hx) hb hown hlink hxname
      exact (h.yours.fresh _ hyou b.id List.mem_cons_self).2.2 x hx (by rw [hxb])
    -- the constraint is on the column under way, so that one is unique and compares
    obtain ⟨y, hy, ⟨hy1, hy2, hy3⟩, z, hz, ⟨hz1, hz2, hz3⟩, hzu, hcomp⟩ :=
      Tenant.refersTo_iff.1 href
    have hyc : y = t.physicalColumn c := by
      refine h.valid.columnKeys y hy _ (hview.column_mem (hview' ht) (Or.inl hc) htid.symm) ?_
      simp only [hy1, hy2, hy3, DBTable.physicalForeignKey, DBTable.physicalColumn]
    have hzb : z = rt.physicalColumn b := by
      refine h.valid.columnKeys z hz _ (hview.column_mem (hview' hrt) hb hlink) ?_
      simp only [hz1, hz2, hz3, DBTable.physicalForeignKey, DBTable.physicalColumn, hdb, hcolumn]
    subst hyc hzb
    have hys : you.stage.isFinished = false := by
      cases hys : you.stage with
      | finished done => rw [hys] at hmk; cases hmk
      | _ => rfl
    have hstill := h.still (by rw [hst]; rfl) hys
    have hpasses := hstill.mine (by simp [hst])
    have hypasses := hstill.yours fun heq => by rw [heq] at hmk; cases hmk
    have hcat : s.catalog = s₀.catalog := by rw [hstill.state]
    refine hclash ?_
    rw [hreq] at hpasses
    rw [hyreq] at hypasses
    unfold Task.clashes
    rw [hyreq, hreq]
    refine ⟨hypasses, hpasses, _, rfl, _, rfl, rfl, hunique ▸ hzu, hnumbers ▸ hfit, ?_, ?_, ?_⟩
    · rw [← hcat, ← hname]
      exact hnoname
    · rw [← hcat]
      exact ⟨rc, hrc, rfl, by rw [hcolumn, hname]⟩
    · rw [← hcat, ← htype]
      exact ⟨c, hc, rfl, hcomp⟩

theorem Together.applyAddForeignKey {fk : DBForeignKey} {c rc : DBColumn} {t rt : DBTable}
    {ten' : Tenant} (h : Together s₀ s me you)
    (hst : me.stage = .planned (.addForeignKey fk c t rt rc))
    (hclash : ¬ you.clashes s₀ me)
    (hexec : s.tenant.exec (.addForeignKey (t.physicalForeignKey c rt rc fk.onDelete)) =
      some ten') :
    Together s₀ { s with tenant := ten' }
      { me with stage := .applied (.addForeignKey fk c t rt rc) } you := by
  have hplan : me.stage.plan? = some (.addForeignKey fk c t rt rc) := by rw [hst]; rfl
  have hmade : me.stage.made = none := by rw [hst]; rfl
  have hview := h.view
  rw [hmade] at hview
  obtain ⟨-, tableId, hreq⟩ := h.mine.decided _ hplan
  have hvalid := h.valid.exec hexec
  obtain ⟨href, -, hten⟩ := Tenant.exec_addForeignKey hexec
  have hforeign := h.foreign_of_not_clashes hst hclash href
  have hview' : Matches _ _ ten' := hview.of_eq (by rw [hten]) (by rw [hten])
  refine
    { rows := h.rows
      valid := hvalid
      view := hview'.congr (fun a => hasTable_addForeignKey)
        (fun _ c _ _ => hasColumn_addForeignKey)
      disjoint := fun p q hp hq => h.disjoint p q (hplan.trans hp) hq
      still := fun _ hy =>
        have hs := h.still (by rw [hst]; rfl) hy
        hs.advance rfl (hs.mine (by simp [hst]))
      mine := h.mine.apply hst rfl rfl (by simp)
        (by simp) (by simp) (by simp)
      yours := h.yours.frame_ddl hst (by simp) (fun hdel => ?_)
        (fun x hx => ?_) }
  · exact absurd (by rw [hreq]; rfl) hdel
  · rw [hten] at hx
    rcases mem_concat.1 hx with hx | rfl
    · exact Or.inl hx
    · exact Or.inr hforeign

end Step

end Databases
