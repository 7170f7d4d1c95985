import IntraCloud.Analytics.Services
import IntraCloud.Databases.Proofs.ExplorerProofs
import IntraCloud.System.Cells
import IntraCloud.Transition.Proofs.RunsProofs

/-!
# Two runs that differ in the cells of a tenant database

Reads, exports, analyses and dashboards are refused to the user or are of other tables; inserts and deletes
answer with nothing that was there before. An update does, unless it sets everything it returns.
-/

namespace Cells

open Analytics Authority Databases Organizations Permissions Python Sharing Transition

variable {ν : Type} {sv : Server ν} {ops : Operations ν} {V : ValueType ν} {database user : Uuid}
  {s : State ν} {rows' : TenantRows ν}

/-! ## Lookups -/

/-- The state with other rows. -/
def State.withRows (s : State ν) (rows : TenantRows ν) : State ν := { s with rows }

theorem memberDatabase_rows (id : Uuid) :
    memberDatabase (s.withRows rows') user id = memberDatabase s user id := rfl

theorem memberTable_rows (id : Uuid) :
    memberTable (s.withRows rows') user id = memberTable s user id := rfl

theorem memberDashboard_rows (id : Uuid) :
    memberDashboard (s.withRows rows') user id = memberDashboard s user id := rfl

theorem allows_rows (code : String) (organization id : Uuid) :
    allows (s.withRows rows') user code organization id = allows s user code organization id := rfl

theorem mayAnalyze_rows (organization : Uuid) :
    mayAnalyze (s.withRows rows') user organization = mayAnalyze s user organization := rfl

theorem belongs_rows (id : Uuid) : belongs (s.withRows rows') id = belongs s id := rfl

theorem clashes_rows (d : Dashboard) : clashes (s.withRows rows') d = clashes s d := rfl

theorem memberDatabase_owned {id organization : Uuid} (h : memberDatabase s user id = some organization) :
    OwnedBy s id organization := by
  obtain ⟨row, hrow, h⟩ := Option.bind_eq_some_iff.mp h
  have hfound := List.find?_some hrow
  simp only [Bool.and_eq_true, beq_iff_eq] at hfound
  exact ⟨row, List.mem_of_find?_eq_some hrow, hfound.1.1, hfound.1.2, h⟩

/-- A table that a lookup finds is in a database of the organization that comes with it. -/
theorem memberTable_owned {id organization : Uuid} {t : DBTable}
    (h : memberTable s user id = some (t, organization)) : OwnedBy s t.tenantDatabase organization := by
  obtain ⟨found, -, h⟩ := Option.bind_eq_some_iff.mp h
  obtain ⟨owner, howner, h⟩ := Option.bind_eq_some_iff.mp h
  obtain ⟨rfl, rfl⟩ := Prod.mk.inj (Option.some.inj h)
  exact memberDatabase_owned howner

/-- The states are the same but for their rows. -/
theorem SameButCells.exists_rows {s s' : State ν} (h : SameButCells V database s s') :
    ∃ rows', s' = s.withRows rows' ∧
      List.Forall₂ (AlikeCells V s.tenant database) s.rows rows' := by
  obtain ⟨authority, catalog, tenant, rows, dashboards⟩ := s
  obtain ⟨authority', catalog', tenant', rows', dashboards'⟩ := s'
  obtain ⟨rfl, rfl, rfl, hrows, rfl⟩ := h
  exact ⟨rows', rfl, hrows⟩

theorem SameButCells.of_rows (h : List.Forall₂ (AlikeCells V s.tenant database) s.rows rows') :
    SameButCells V database s (s.withRows rows') := ⟨rfl, rfl, rfl, h, rfl⟩

/-! ## Rows -/

/-- A view of a table comes to related results, if it does where the user has its permission. -/
theorem withTable_rel {α : Type} {R : α → α → Prop} {tableId : Uuid} {code : String}
    {refused refused' : Response ν → α} {serve serve' : DBTable → α} (hrefused : ∀ r, R (refused r) (refused' r))
    (hserve : ∀ t organization, memberTable s user tableId = some (t, organization) →
      allows s user code organization t.tenantDatabase = true → R (serve t) (serve' t)) :
    R (withTable s user tableId code refused serve)
      (withTable (s.withRows rows') user tableId code refused' serve') := by
  unfold withTable
  rw [memberTable_rows]
  cases hmember : memberTable s user tableId with
  | none => exact hrefused .notFound
  | some found =>
    obtain ⟨t, organization⟩ := found
    dsimp only
    rw [allows_rows]
    by_cases hallowed : allows s user code organization t.tenantDatabase = true
    · rw [hallowed]
      exact hserve t organization hmember hallowed
    · rw [Bool.eq_false_of_not_eq_true hallowed]
      exact hrefused .forbidden

/-- The user reads and exports tables of other databases only, and these have the same rows. -/
theorem ofTable_eq_of_allowed (h : List.Forall₂ (AlikeCells V s.tenant database) s.rows rows')
    (hwithheld : Withheld database user s) {code : String} (hcode : code = "database.read" ∨ code = "dataset.export")
    {tableId organization : Uuid} {t : DBTable} (hmember : memberTable s user tableId = some (t, organization))
    (hallowed : allows s user code organization t.tenantDatabase = true) :
    s.rows.ofTable t.physical = rows'.ofTable t.physical := by
  refine ofTable_eq h ?_
  rintro (hdatabase : t.tenantDatabase = database)
  subst hdatabase
  obtain ⟨hread, hexport⟩ := hwithheld organization (memberTable_owned hmember)
  obtain rfl | rfl := hcode
  · exact Bool.false_ne_true (hread.symm.trans hallowed)
  · exact Bool.false_ne_true (hexport.symm.trans hallowed)

theorem getRows_eq (h : List.Forall₂ (AlikeCells V s.tenant database) s.rows rows')
    (hwithheld : Withheld database user s) (tableId : Uuid) (q : PageQuery) :
    getRows sv s user tableId q = getRows sv (s.withRows rows') user tableId q := by
  refine withTable_rel (fun _ => rfl) fun t organization hmember hallowed => ?_
  rw [ofTable_eq_of_allowed h hwithheld (.inl rfl) hmember hallowed]
  rfl

theorem getRowDetail_eq (h : List.Forall₂ (AlikeCells V s.tenant database) s.rows rows')
    (hwithheld : Withheld database user s) (tableId rowId : Uuid) :
    getRowDetail sv s user tableId rowId = getRowDetail sv (s.withRows rows') user tableId rowId := by
  refine withTable_rel (fun _ => rfl) fun t organization hmember hallowed => ?_
  rw [ofTable_eq_of_allowed h hwithheld (.inl rfl) hmember hallowed]
  rfl

theorem exportRows_eq (h : List.Forall₂ (AlikeCells V s.tenant database) s.rows rows')
    (hwithheld : Withheld database user s) (tableId : Uuid) :
    exportRows sv s user tableId = exportRows sv (s.withRows rows') user tableId := by
  refine withTable_rel (fun _ => rfl) fun t organization hmember hallowed => ?_
  rw [ofTable_eq_of_allowed h hwithheld (.inr rfl) hmember hallowed]
  rfl

theorem postRow_same (h : List.Forall₂ (AlikeCells sv.toValueType s.tenant database) s.rows rows')
    (actor tableId : Uuid) (body : Body) (id : Uuid) :
    (postRow sv s actor tableId body id).2 = (postRow sv (s.withRows rows') actor tableId body id).2 ∧
      SameButCells sv.toValueType database (postRow sv s actor tableId body id).1
        (postRow sv (s.withRows rows') actor tableId body id).1 := by
  refine withTable_rel (R := fun x y : State ν × Response ν =>
    x.2 = y.2 ∧ SameButCells sv.toValueType database x.1 y.1) (fun _ => ⟨rfl, .of_rows h⟩) fun t _ _ _ => ?_
  obtain ⟨hresult, hafter⟩ := insertRow_alike t.physical (columnsOf s t) h body id
  exact ⟨congrArg (rowResponse .createdRow) hresult, ⟨rfl, rfl, rfl, hafter, rfl⟩⟩

theorem removeRow_same (h : List.Forall₂ (AlikeCells sv.toValueType s.tenant database) s.rows rows')
    (actor tableId rowId : Uuid) :
    (removeRow sv s actor tableId rowId).2 = (removeRow sv (s.withRows rows') actor tableId rowId).2 ∧
      SameButCells sv.toValueType database (removeRow sv s actor tableId rowId).1
        (removeRow sv (s.withRows rows') actor tableId rowId).1 := by
  refine withTable_rel (R := fun x y : State ν × Response ν =>
    x.2 = y.2 ∧ SameButCells sv.toValueType database x.1 y.1) (fun _ => ⟨rfl, .of_rows h⟩) fun t _ _ _ => ?_
  obtain ⟨hresult, hafter⟩ := deleteRow_alike (t := t.physical) h rowId
  exact ⟨congrArg (rowResponse fun _ => .noContent) hresult, ⟨rfl, rfl, rfl, hafter, rfl⟩⟩

/-- An update leaves the same states but for such cells, whoever makes it. -/
theorem patchRow_same (h : List.Forall₂ (AlikeCells sv.toValueType s.tenant database) s.rows rows')
    (actor tableId rowId : Uuid) (body : Body) :
    SameButCells sv.toValueType database (patchRow sv s actor tableId rowId body).1
      (patchRow sv (s.withRows rows') actor tableId rowId body).1 := by
  refine withTable_rel (R := fun x y : State ν × Response ν => SameButCells sv.toValueType database x.1 y.1)
    (fun _ => .of_rows h) fun t _ _ _ => ?_
  obtain ⟨-, hafter⟩ := updateRow_alike t.physical (columnsOf s t) h rowId body
  exact ⟨rfl, rfl, rfl, hafter, rfl⟩

/-- And answers the same, if it returns nothing it did not set. -/
theorem patchRow_eq (h : List.Forall₂ (AlikeCells sv.toValueType s.tenant database) s.rows rows')
    {tableId rowId : Uuid} {body : Body}
    (hspares : Spares sv database user s (.request user (.patchRow tableId rowId body))) :
    (patchRow sv s user tableId rowId body).2 =
      (patchRow sv (s.withRows rows') user tableId rowId body).2 := by
  refine withTable_rel (R := fun x y : State ν × Response ν => x.2 = y.2) (fun _ => rfl)
    fun t organization hmember hallowed => ?_
  obtain ⟨hresult, -⟩ := updateRow_alike t.physical (columnsOf s t) h rowId body
  refine congrArg (rowResponse .row) (hresult ?_)
  by_cases hdatabase : t.tenantDatabase = database
  · exact .inr (hspares rfl t organization hmember hdatabase (hdatabase ▸ hallowed))
  · exact .inl hdatabase

/-! ## Analyses and dashboards -/

theorem access_same (h : List.Forall₂ (AlikeCells V s.tenant database) s.rows rows')
    (hwithheld : Withheld database user s) (id : Uuid) :
    Option.Rel SameAccess (access s user id) (access (s.withRows rows') user id) := by
  unfold access
  rw [memberTable_rows]
  cases hmember : memberTable s user id with
  | none => exact .none
  | some found =>
    obtain ⟨t, organization⟩ := found
    exact .some ⟨rfl, rfl, rfl, ofTable_eq_of_allowed h hwithheld (.inl rfl) hmember⟩

theorem postAnalysis_eq (h : List.Forall₂ (AlikeCells V s.tenant database) s.rows rows')
    (hwithheld : Withheld database user s) (id : Uuid) (body : Option (List Char × PyJson)) :
    postAnalysis ops s user id body = postAnalysis ops (s.withRows rows') user id body := by
  have hsame := access_same h hwithheld id
  unfold postAnalysis
  generalize access s user id = a at hsame ⊢
  generalize access (s.withRows rows') user id = a' at hsame ⊢
  cases hsame with
  | none => rfl
  | some hsame =>
    cases body with
    | none => rfl
    | some body => simp only [runAnalysis_eq hsame]

theorem getProfile_eq (h : List.Forall₂ (AlikeCells V s.tenant database) s.rows rows')
    (hwithheld : Withheld database user s) (id : Uuid) :
    getProfile ops s user id = getProfile ops (s.withRows rows') user id := by
  have hsame := access_same h hwithheld id
  unfold getProfile
  generalize access s user id = a at hsame ⊢
  generalize access (s.withRows rows') user id = a' at hsame ⊢
  cases hsame with
  | none => rfl
  | some hsame => simp only [runProfile_eq hsame]

theorem getRendered_eq (h : List.Forall₂ (AlikeCells V s.tenant database) s.rows rows')
    (hwithheld : Withheld database user s) (id : Uuid) :
    getRendered ops s user id = getRendered ops (s.withRows rows') user id := by
  unfold getRendered
  rw [memberDashboard_rows]
  cases memberDashboard s user id with
  | none => rfl
  | some found =>
    obtain ⟨d, organization⟩ := found
    dsimp only
    rw [renderDashboard_eq (access_same h hwithheld)]

/-- The requests about dashboards see and write no rows. -/
theorem postDashboard_same (h : List.Forall₂ (AlikeCells V s.tenant database) s.rows rows') (actor id : Uuid)
    (body : Option (String × List PyJson)) (fresh : Uuid) :
    (postDashboard ops s actor id body fresh).2 =
        (postDashboard ops (s.withRows rows') actor id body fresh).2 ∧
      SameButCells V database (postDashboard ops s actor id body fresh).1
        (postDashboard ops (s.withRows rows') actor id body fresh).1 := by
  unfold postDashboard
  rw [memberDatabase_rows]
  cases memberDatabase s actor id with
  | none => exact ⟨rfl, .of_rows h⟩
  | some organization =>
    cases body with
    | none => exact ⟨rfl, .of_rows h⟩
    | some body =>
      obtain ⟨name, widgets⟩ := body
      dsimp only
      rw [mayAnalyze_rows, belongs_rows, clashes_rows]
      by_cases hdenied : (!mayAnalyze s actor organization) = true
      · simp only [if_pos hdenied]
        exact ⟨trivial, .of_rows h⟩
      · simp only [if_neg hdenied]
        cases validateWidgets ops (belongs s id) widgets with
        | error e => exact ⟨rfl, .of_rows h⟩
        | ok _ =>
          dsimp only
          split_ifs
          · exact ⟨rfl, .of_rows h⟩
          · exact ⟨rfl, rfl, rfl, rfl, h, rfl⟩

theorem patchDashboard_same (h : List.Forall₂ (AlikeCells V s.tenant database) s.rows rows') (actor id : Uuid)
    (body : Option (Option String × Option (List PyJson))) :
    (patchDashboard ops s actor id body).2 = (patchDashboard ops (s.withRows rows') actor id body).2 ∧
      SameButCells V database (patchDashboard ops s actor id body).1
        (patchDashboard ops (s.withRows rows') actor id body).1 := by
  unfold patchDashboard
  rw [memberDashboard_rows]
  cases memberDashboard s actor id with
  | none => exact ⟨rfl, .of_rows h⟩
  | some found =>
    obtain ⟨d, organization⟩ := found
    cases body with
    | none => exact ⟨rfl, .of_rows h⟩
    | some body =>
      obtain ⟨name, widgets⟩ := body
      dsimp only
      rw [mayAnalyze_rows, belongs_rows, clashes_rows]
      by_cases hdenied : (!mayAnalyze s actor organization) = true
      · simp only [if_pos hdenied]
        exact ⟨trivial, .of_rows h⟩
      · simp only [if_neg hdenied]
        cases validateWidgets ops (belongs s d.tenantDatabase) (widgets.getD []) with
        | error e => exact ⟨rfl, .of_rows h⟩
        | ok _ =>
          dsimp only
          split_ifs
          · exact ⟨rfl, .of_rows h⟩
          · exact ⟨rfl, rfl, rfl, rfl, h, rfl⟩

theorem removeDashboard_same (h : List.Forall₂ (AlikeCells V s.tenant database) s.rows rows')
    (actor id : Uuid) :
    (removeDashboard s actor id).2 = (removeDashboard (s.withRows rows') actor id).2 ∧
      SameButCells V database (removeDashboard s actor id).1
        (removeDashboard (s.withRows rows') actor id).1 := by
  unfold removeDashboard
  rw [memberDashboard_rows]
  cases memberDashboard s actor id with
  | none => exact ⟨rfl, .of_rows h⟩
  | some found =>
    obtain ⟨d, organization⟩ := found
    dsimp only
    rw [mayAnalyze_rows]
    split_ifs
    · exact ⟨rfl, .of_rows h⟩
    · exact ⟨rfl, rfl, rfl, rfl, h, rfl⟩

/-! ## Runs -/

/-- A request of anybody leaves the same states but for such cells. -/
theorem serve_same (h : List.Forall₂ (AlikeCells sv.toValueType s.tenant database) s.rows rows') (actor : Uuid)
    (r : Request) :
    SameButCells sv.toValueType database (serve sv ops s actor r).1
      (serve sv ops (s.withRows rows') actor r).1 := by
  cases r with
  | postRow tableId body id => exact (postRow_same h actor tableId body id).2
  | patchRow tableId rowId body => exact patchRow_same h actor tableId rowId body
  | deleteRow tableId rowId => exact (removeRow_same h actor tableId rowId).2
  | postDashboard id body fresh => exact (postDashboard_same h actor id body fresh).2
  | patchDashboard id body => exact (patchDashboard_same h actor id body).2
  | deleteDashboard id => exact (removeDashboard_same h actor id).2
  | _ => exact .of_rows h

/-- The user's requests are answered in the same way. -/
theorem response_eq (h : List.Forall₂ (AlikeCells sv.toValueType s.tenant database) s.rows rows')
    (hwithheld : Withheld database user s) {r : Request}
    (hspares : Spares sv database user s (.request user r)) :
    (serve sv ops s user r).2 = (serve sv ops (s.withRows rows') user r).2 := by
  cases r with
  | getRows tableId q => exact getRows_eq h hwithheld tableId q
  | postRow tableId body id => exact (postRow_same h user tableId body id).1
  | getRow tableId rowId => exact getRowDetail_eq h hwithheld tableId rowId
  | patchRow tableId rowId body => exact patchRow_eq h hspares
  | deleteRow tableId rowId => exact (removeRow_same h user tableId rowId).1
  | exportRows tableId => exact exportRows_eq h hwithheld tableId
  | postAnalysis tableId body => exact postAnalysis_eq h hwithheld tableId body
  | getProfile tableId => exact getProfile_eq h hwithheld tableId
  | postDashboard id body fresh => exact (postDashboard_same h user id body fresh).1
  | patchDashboard id body => exact (patchDashboard_same h user id body).1
  | deleteDashboard id => exact (removeDashboard_same h user id).1
  | getRendered id => exact getRendered_eq h hwithheld id
  | getDashboards id => rfl
  | getDashboard id => rfl

theorem SameButCells.step {s s' : State ν} (h : SameButCells sv.toValueType database s s') (a : Action) :
    SameButCells sv.toValueType database (Cells.step sv ops s a) (Cells.step sv ops s' a) := by
  obtain ⟨rows', rfl, hrows⟩ := h.exists_rows
  cases a with
  | request actor r => exact serve_same hrows actor r
  | authorize authority => exact ⟨rfl, rfl, rfl, hrows, rfl⟩

theorem SameButCells.received_eq {s s' : State ν} (h : SameButCells sv.toValueType database s s')
    (hwithheld : Withheld database user s) {a : Action} (hspares : Spares sv database user s a) :
    received sv ops user s a = received sv ops user s' a := by
  obtain ⟨rows', rfl, hrows⟩ := h.exists_rows
  cases a with
  | request actor r =>
    show (if actor = user then some (serve sv ops s actor r).2 else none) =
      if actor = user then some (serve sv ops (s.withRows rows') actor r).2 else none
    by_cases hactor : actor = user
    · subst hactor
      rw [response_eq hrows hwithheld hspares]
    · rw [if_neg hactor, if_neg hactor]
  | authorize authority => rfl

/-- The user receives the same of both runs, if the database is withheld from the user throughout and every
update that the user makes of a row of it sets all that it returns. -/
theorem observations_eq_of_spares {s s' : State ν} (hsame : SameButCells sv.toValueType database s s')
    {as : List Action}
    (h : Always (step sv ops) (fun s a => Withheld database user s ∧ Spares sv database user s a) s as) :
    observations (step sv ops) (received sv ops user) s as =
      observations (step sv ops) (received sv ops user) s' as := by
  refine observations_eq_of_unwinding (R := SameButCells sv.toValueType database) ?_ ?_ hsame h
  · exact fun _ _ _ hsame h => hsame.received_eq h.1 h.2
  · exact fun _ _ a hsame _ => hsame.step a

/-! ## A user who may write -/

/-- A server with texts only. -/
def exampleServer : Server (List Char) where
  uuid := uuidText
  same s s' := s == s'
  text := id
  store _
    | .plain .none => some none
    | .plain (.str s) => some (some s)
    | _ => none
  default _ := none
  equals _ s := some fun s' => s' == s
  ilike s s' := (List.range (s'.length + 1)).any fun n => s.isPrefixOf (s'.drop n)
  before
    | _, none => true
    | none, some _ => false
    | some s, some s' => decide (String.ofList s ≤ String.ofList s')
  floatText := id

/-- A registry without operations. -/
def exampleOperations : Operations (List Char) where
  get _ := none
  profile _ _ _ := .crash

def exampleTable : DBTable := ⟨5, 4, "t"⟩

/-- An organization with a member, 10, who has a grant to write to the tenant database 4. Its table has two
text columns and one row, 9. -/
def exampleState (b : List Char) : State (List Char) where
  authority := { start with
    directory := { start.directory with
      memberships := [⟨10, 1, none, .active⟩]
      tables := { start.directory.tables with
        resourceGrants := [⟨10, "database.write", 1, RESOURCE_TYPE_TENANT_DATABASE, 4, none, none, .direct⟩] } }
    rows := [⟨.workspace, 2, 1⟩, ⟨.project, 3, 2⟩, ⟨.tenantDatabase, 4, 3⟩, ⟨.table, 5, 4⟩] }
  catalog := ⟨[⟨4, 3, "d"⟩], [exampleTable],
    [{ id := 6, table := 5, name := "id", dataType := .uuid, isPrimaryKey := true, isNullable := false,
       isUnique := true },
     { id := 7, table := 5, name := "a", dataType := .text },
     { id := 8, table := 5, name := "b", dataType := .text }], [], []⟩
  tenant := ⟨[⟨4⟩], [(⟨4⟩, "t")],
    [Tenant.idColumn ⟨4⟩ "t", ⟨⟨4⟩, "t", "a", .text, false, false, false, .absent⟩,
     ⟨⟨4⟩, "t", "b", .text, false, false, false, .absent⟩], []⟩
  rows := [((⟨4⟩, "t"), ⟨9, [("a", ['x']), ("b", b)]⟩)]
  dashboards := []

theorem exampleState_same (b b' : List Char) :
    SameButCells exampleServer.toValueType 4 (exampleState b) (exampleState b') := by
  refine ⟨rfl, rfl, rfl, .cons ⟨rfl, rfl, fun h => absurd rfl h, fun column hc => ?_⟩ .nil, rfl⟩
  have hid : column = "id" ∨ "id" = column := by
    simpa [Tenant.constrained, Tenant.columnsOf, Tenant.keys, exampleState, Tenant.idColumn] using hc
  obtain rfl | rfl := hid
  · rw [value_id, value_id]
  · rw [value_id, value_id]

theorem exampleState_withheld (b : List Char) : Withheld 4 10 (exampleState b) := by
  have horganization : ∀ r ∈ (exampleState []).authority.rows, r.kind = .tenantDatabase →
      r.organization (exampleState []).authority.rows = some 1 := by decide
  rintro organization ⟨r, hr, hkind, -, howned⟩
  obtain rfl := Option.some.inj ((horganization r hr hkind).symm.trans howned)
  show allows (exampleState []) 10 "database.read" 1 4 = false ∧
    allows (exampleState []) 10 "dataset.export" 1 4 = false
  decide

/-- The user asks for the row, and then sets both of its texts. -/
theorem observations_eq_of_spares_example :
    observations (step exampleServer exampleOperations) (received exampleServer exampleOperations 10)
        (exampleState ['1'])
        [.request 10 (.getRow 5 9),
          .request 10 (.patchRow 5 9 (.fields [(['a'], .str ['y']), (['b'], .str ['z'])]))] =
      observations (step exampleServer exampleOperations) (received exampleServer exampleOperations 10)
        (exampleState ['2'])
        [.request 10 (.getRow 5 9),
          .request 10 (.patchRow 5 9 (.fields [(['a'], .str ['y']), (['b'], .str ['z'])]))] := by
  refine observations_eq_of_spares (exampleState_same ['1'] ['2'])
    ⟨⟨exampleState_withheld _, trivial⟩, ⟨exampleState_withheld _, ?_⟩, trivial⟩
  intro _ t organization hmember _ _
  have htable : memberTable (exampleState ['1']) 10 5 = some (exampleTable, 1) := by decide
  obtain ⟨rfl, rfl⟩ := Prod.mk.inj (Option.some.inj (htable.symm.trans hmember))
  left
  decide

/-- A user who may write and not read sees the cells that an update leaves as they were. -/
theorem not_confidential_of_update : ¬ Confidential exampleServer exampleOperations 4 10 := by
  intro h
  have hrun := h _ _ [.request 10 (.patchRow 5 9 (.fields [(['a'], .str ['y'])]))]
    (exampleState_same ['1'] ['2']) ⟨exampleState_withheld _, trivial⟩
  have hrows := congrArg (List.map fun | .row r => r | _ => []) hrun
  exact absurd hrows (by decide)

end Cells
