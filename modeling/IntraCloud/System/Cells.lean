import IntraCloud.Analytics.Services
import IntraCloud.Databases.Explorer
import IntraCloud.System.Authority
import IntraCloud.Transition.Runs

/-!
# Who sees the cells of a tenant database

The requests for rows, analyses and dashboards, of all users, while memberships, roles and grants change in
any way between them.
-/

namespace Cells

open Analytics Authority Databases Organizations Permissions Python Sharing

variable {ν : Type}

/-! ## The state -/

/-- The directory, the catalog, the tenant databases with their rows, and the dashboards. -/
structure State (ν : Type) where
  authority : Authority.State
  catalog : Catalog
  tenant : Tenant
  rows : TenantRows ν
  dashboards : List Dashboard

/-- What a response says. -/
inductive Response (ν : Type) where
  | notFound
  | forbidden
  | serverError
  /-- "limit/offset must be integers" -/
  | invalidPage
  /-- A body that the serializer refuses. -/
  | invalidBody
  | rowError (e : RowError)
  | page (p : Page ν)
  | row (r : List (String × Option ν))
  | createdRow (r : List (String × Option ν))
  | noContent
  | csv (filename : String) (records : List Csv.Record)
  | analyticsError (e : AnalyticsError)
  | analysis (data : PyJson)
  | dashboards (found : List Dashboard)
  | dashboard (d : Dashboard)
  | createdDashboard (d : Dashboard)
  | rendered (id : Uuid) (name : String) (widgets : List WidgetResult)

/-! ## Lookups and permissions -/

/-- `get_member_tenant_database`, with the organization. -/
def memberDatabase (s : State ν) (user id : Uuid) : Option Uuid := do
  let d ← getMemberTenantDatabase s.authority user id
  d.organization s.authority.rows

/-- `get_member_table`, with the organization. -/
def memberTable (s : State ν) (user id : Uuid) : Option (DBTable × Uuid) := do
  let t ← s.catalog.tables.find? fun t => t.id == id
  let organization ← memberDatabase s user t.tenantDatabase
  return (t, organization)

/-- `get_member_dashboard`, with the organization. -/
def memberDashboard (s : State ν) (user id : Uuid) : Option (Dashboard × Uuid) := do
  let d ← s.dashboards.find? fun d => d.id == id
  let organization ← memberDatabase s user d.tenantDatabase
  return (d, organization)

/-- `has_permission` on a tenant database, `_database_resource`. -/
def allows (s : State ν) (user : Uuid) (code : String) (organization database : Uuid) : Bool :=
  hasPermission s.authority.directory.tables s.authority.now user code organization
    (some (RESOURCE_TYPE_TENANT_DATABASE, database))

/-- `_require_analyze`. -/
def mayAnalyze (s : State ν) (user organization : Uuid) : Bool :=
  hasPermission s.authority.directory.tables s.authority.now user "dataset.analyze" organization none

/-- `table.columns`, in the order they were added. -/
def columnsOf (s : State ν) (t : DBTable) : List DBColumn := s.catalog.columns.filter fun c => c.table == t.id

/-- What `_require_read` and an operation find of a table. -/
def access (s : State ν) (user id : Uuid) : Option (Access ν) :=
  (memberTable s user id).map fun (t, organization) =>
    ⟨t, columnsOf s t, s.rows.ofTable t.physical, allows s user "database.read" organization t.tenantDatabase⟩

/-- The tenant database belongs to the organization. -/
def OwnedBy (s : State ν) (database organization : Uuid) : Prop :=
  ∃ r ∈ s.authority.rows, r.kind = .tenantDatabase ∧ r.id = database ∧
    r.organization s.authority.rows = some organization

/-! ## Rows -/

/-- The views catch `RowNotFound` and `RowValueError`. -/
def rowResponse {α : Type} (ok : α → Response ν) : Except RowFailure α → Response ν
  | .ok result => ok result
  | .error (.invalid e) => .rowError e
  | .error .notFound => .notFound
  | .error .serverError => .serverError

/-- A view of a table that asks for a permission on its database. -/
def withTable {α : Type} (s : State ν) (user tableId : Uuid) (code : String) (refused : Response ν → α)
    (serve : DBTable → α) : α :=
  match memberTable s user tableId with
  | none => refused .notFound
  | some (t, organization) =>
    if !allows s user code organization t.tenantDatabase then refused .forbidden else serve t

/-- `int(request.query_params.get(name, default))`. -/
def intParameter (text : Option (List Char)) (default : Nat) : Option Int :=
  match text with
  | none => some default
  | some text => parseInt? (strip text)

/-- `RowListCreateView.get`. -/
def getRows (sv : Server ν) (s : State ν) (user tableId : Uuid) (q : PageQuery) : Response ν :=
  withTable s user tableId "database.read" id fun t =>
    match intParameter q.limit DEFAULT_LIMIT, intParameter q.offset 0 with
    | some limit, some offset =>
      rowResponse .page
        (listRows sv s.tenant t.physical (columnsOf s t) (s.rows.ofTable t.physical) limit offset q)
    | _, _ => .invalidPage

/-- `RowListCreateView.post`. -/
def postRow (sv : Server ν) (s : State ν) (user tableId : Uuid) (body : Body) (id : Uuid) :
    State ν × Response ν :=
  withTable s user tableId "database.write" (fun refused => (s, refused)) fun t =>
    let result := insertRow sv s.tenant t.physical (columnsOf s t) s.rows body id
    ({ s with rows := result.1 }, rowResponse .createdRow result.2)

/-- `RowDetailView.get`. -/
def getRowDetail (sv : Server ν) (s : State ν) (user tableId rowId : Uuid) : Response ν :=
  withTable s user tableId "database.read" id fun t =>
    rowResponse .row
      (getRow sv.toValueType s.tenant t.physical (columnsOf s t) (s.rows.ofTable t.physical) rowId)

/-- `RowDetailView.patch`. -/
def patchRow (sv : Server ν) (s : State ν) (user tableId rowId : Uuid) (body : Body) : State ν × Response ν :=
  withTable s user tableId "database.write" (fun refused => (s, refused)) fun t =>
    let result := updateRow sv s.tenant t.physical (columnsOf s t) s.rows rowId body
    ({ s with rows := result.1 }, rowResponse .row result.2)

/-- `RowDetailView.delete`. -/
def removeRow (sv : Server ν) (s : State ν) (user tableId rowId : Uuid) : State ν × Response ν :=
  withTable s user tableId "database.write" (fun refused => (s, refused)) fun t =>
    let result := deleteRow sv.toValueType s.tenant t.physical s.rows rowId
    ({ s with rows := result.1 }, rowResponse (fun _ => .noContent) result.2)

/-- `RowExportView.get`. -/
def exportRows (sv : Server ν) (s : State ν) (user tableId : Uuid) : Response ν :=
  withTable s user tableId "dataset.export" id fun t =>
    if !readable s.tenant t.physical (columnsOf s t) then .serverError
    else .csv (t.name ++ ".csv")
      (iterExportRows sv.toValueType ((columnsOf s t).map (·.name)) (s.rows.ofTable t.physical))

/-! ## Analyses and dashboards -/

/-- The views catch `AnalyticsPermissionDenied` and `AnalyticsValidationError`. -/
def analyticsResponse {α : Type} (ok : α → Response ν) : Except Failure α → Response ν
  | .ok result => ok result
  | .error .notFound => .notFound
  | .error .denied => .forbidden
  | .error (.invalid e) => .analyticsError e
  | .error .serverError => .serverError

/-- `TableAnalyzeView.post`, of the operation and its parameters. -/
def postAnalysis (ops : Operations ν) (s : State ν) (user tableId : Uuid) (body : Option (List Char × PyJson)) :
    Response ν :=
  match access s user tableId with
  | none => .notFound
  | some a =>
    match body with
    | none => .invalidBody
    | some (operation, params) => analyticsResponse .analysis (runAnalysis ops a (.str operation) params)

/-- `TableProfileView.get`. -/
def getProfile (ops : Operations ν) (s : State ν) (user tableId : Uuid) : Response ν :=
  match access s user tableId with
  | none => .notFound
  | some a => analyticsResponse .analysis (runProfile ops a)

/-- `DashboardListCreateView.get`. -/
def getDashboards (s : State ν) (user databaseId : Uuid) : Response ν :=
  match memberDatabase s user databaseId with
  | none => .notFound
  | some _ => .dashboards (s.dashboards.filter fun d => d.tenantDatabase == databaseId)

/-- The table belongs to the database. -/
def belongs (s : State ν) (databaseId tableId : Uuid) : Bool :=
  s.catalog.tables.any fun t => t.id == tableId && t.tenantDatabase == databaseId

/-- `unique_dashboard_name_per_database` refuses the row. -/
def clashes (s : State ν) (d : Dashboard) : Bool :=
  s.dashboards.any fun x => x.id != d.id && x.tenantDatabase == d.tenantDatabase && x.name == d.name

/-- `DashboardListCreateView.post`, of the name and the widgets. -/
def postDashboard (ops : Operations ν) (s : State ν) (user databaseId : Uuid)
    (body : Option (String × List PyJson)) (id : Uuid) : State ν × Response ν :=
  match memberDatabase s user databaseId with
  | none => (s, .notFound)
  | some organization =>
    match body with
    | none => (s, .invalidBody)
    | some (name, widgets) =>
      if !mayAnalyze s user organization then (s, .forbidden)
      else
        match validateWidgets ops (belongs s databaseId) widgets with
        | .error e => (s, analyticsResponse (fun _ : Unit => .noContent) (.error e))
        | .ok () =>
          let d : Dashboard := ⟨id, databaseId, name, widgets⟩
          if clashes s d then (s, .serverError)
          else ({ s with dashboards := s.dashboards ++ [d] }, .createdDashboard d)

/-- `DashboardDetailView.get`. -/
def getDashboard (s : State ν) (user dashboardId : Uuid) : Response ν :=
  match memberDashboard s user dashboardId with
  | none => .notFound
  | some (d, _) => .dashboard d

/-- `DashboardDetailView.patch`, of the name and the widgets that the body has. -/
def patchDashboard (ops : Operations ν) (s : State ν) (user dashboardId : Uuid)
    (body : Option (Option String × Option (List PyJson))) : State ν × Response ν :=
  match memberDashboard s user dashboardId with
  | none => (s, .notFound)
  | some (d, organization) =>
    match body with
    | none => (s, .invalidBody)
    | some (name, widgets) =>
      if !mayAnalyze s user organization then (s, .forbidden)
      else
        match validateWidgets ops (belongs s d.tenantDatabase) (widgets.getD []) with
        | .error e => (s, analyticsResponse (fun _ : Unit => .noContent) (.error e))
        | .ok () =>
          let new : Dashboard := { d with name := name.getD d.name, widgets := widgets.getD d.widgets }
          if clashes s new then (s, .serverError)
          else
            ({ s with dashboards := s.dashboards.map fun x => if x.id = dashboardId then new else x },
              .dashboard new)

/-- `DashboardDetailView.delete`. -/
def removeDashboard (s : State ν) (user dashboardId : Uuid) : State ν × Response ν :=
  match memberDashboard s user dashboardId with
  | none => (s, .notFound)
  | some (_, organization) =>
    if !mayAnalyze s user organization then (s, .forbidden)
    else ({ s with dashboards := s.dashboards.filter fun x => x.id != dashboardId }, .noContent)

/-- `DashboardRenderView.get`. -/
def getRendered (ops : Operations ν) (s : State ν) (user dashboardId : Uuid) : Response ν :=
  match memberDashboard s user dashboardId with
  | none => .notFound
  | some (d, _) =>
    match renderDashboard ops (access s user) d with
    | none => .serverError
    | some widgets => .rendered d.id d.name widgets

/-! ## Runs -/

/-- The requests. A body is nothing where the serializer refuses it. -/
inductive Request where
  | getRows (tableId : Uuid) (q : PageQuery)
  | postRow (tableId : Uuid) (body : Body) (id : Uuid)
  | getRow (tableId rowId : Uuid)
  | patchRow (tableId rowId : Uuid) (body : Body)
  | deleteRow (tableId rowId : Uuid)
  | exportRows (tableId : Uuid)
  | postAnalysis (tableId : Uuid) (body : Option (List Char × PyJson))
  | getProfile (tableId : Uuid)
  | getDashboards (databaseId : Uuid)
  | postDashboard (databaseId : Uuid) (body : Option (String × List PyJson)) (id : Uuid)
  | getDashboard (dashboardId : Uuid)
  | patchDashboard (dashboardId : Uuid) (body : Option (Option String × Option (List PyJson)))
  | deleteDashboard (dashboardId : Uuid)
  | getRendered (dashboardId : Uuid)

/-- One request of an authenticated user. -/
def serve (sv : Server ν) (ops : Operations ν) (s : State ν) (user : Uuid) : Request → State ν × Response ν
  | .getRows tableId q => (s, getRows sv s user tableId q)
  | .postRow tableId body id => postRow sv s user tableId body id
  | .getRow tableId rowId => (s, getRowDetail sv s user tableId rowId)
  | .patchRow tableId rowId body => patchRow sv s user tableId rowId body
  | .deleteRow tableId rowId => removeRow sv s user tableId rowId
  | .exportRows tableId => (s, exportRows sv s user tableId)
  | .postAnalysis tableId body => (s, postAnalysis ops s user tableId body)
  | .getProfile tableId => (s, getProfile ops s user tableId)
  | .getDashboards databaseId => (s, getDashboards s user databaseId)
  | .postDashboard databaseId body id => postDashboard ops s user databaseId body id
  | .getDashboard dashboardId => (s, getDashboard s user dashboardId)
  | .patchDashboard dashboardId body => patchDashboard ops s user dashboardId body
  | .deleteDashboard dashboardId => removeDashboard s user dashboardId
  | .getRendered dashboardId => (s, getRendered ops s user dashboardId)

/-- What happens: a request, or a change of who may do what. -/
inductive Action where
  | request (user : Uuid) (r : Request)
  | authorize (authority : Authority.State)

/-- One action. -/
def step (sv : Server ν) (ops : Operations ν) (s : State ν) : Action → State ν
  | .request user r => (serve sv ops s user r).1
  | .authorize authority => { s with authority }

/-- The response, where it is the user's. -/
def received (sv : Server ν) (ops : Operations ν) (user : Uuid) (s : State ν) : Action → Option (Response ν)
  | .request actor r => if actor = user then some (serve sv ops s actor r).2 else none
  | .authorize _ => none

/-! ## Confidentiality -/

/-- The states differ in nothing but cells of existing rows of the tenant database, in columns that no
constraint is on. -/
structure SameButCells (V : ValueType ν) (database : Uuid) (s s' : State ν) : Prop where
  authority : s.authority = s'.authority
  catalog : s.catalog = s'.catalog
  tenant : s.tenant = s'.tenant
  rows : List.Forall₂ (AlikeCells V s.tenant database) s.rows s'.rows
  dashboards : s.dashboards = s'.dashboards

/-- The user may neither read nor export the database, through a role or a grant. -/
def Withheld (database user : Uuid) (s : State ν) : Prop :=
  ∀ organization, OwnedBy s database organization →
    allows s user "database.read" organization database = false ∧
      allows s user "dataset.export" organization database = false

/-- An update of a row of the database by the user, with the permission to write, returns nothing it did not
set. -/
def Spares (sv : Server ν) (database user : Uuid) (s : State ν) : Action → Prop
  | .request actor (.patchRow tableId rowId body) =>
    actor = user → ∀ t organization, memberTable s user tableId = some (t, organization) →
      t.tenantDatabase = database → allows s user "database.write" organization database = true →
        Conceals sv s.tenant t.physical (columnsOf s t) s.rows rowId body
  | _ => True

/-- The user receives the same of every two runs of the same actions from states that differ in nothing but
such cells, while the database is withheld from the user. -/
def Confidential (sv : Server ν) (ops : Operations ν) (database user : Uuid) : Prop :=
  ∀ s s' as, SameButCells sv.toValueType database s s' →
    Transition.Always (step sv ops) (fun s _ => Withheld database user s) s as →
      Transition.observations (step sv ops) (received sv ops user) s as =
        Transition.observations (step sv ops) (received sv ops user) s' as

end Cells
