import IntraCloud.Databases.Rows
import IntraCloud.Databases.Values

/-!
# The data explorer

The statements of `databases/rows.py` on the rows of a tenant table. What the server makes of parameters and
how it compares values are arguments, and so is `str` of a `float`.
-/

namespace Databases

open Python Relational

variable {ν : Type}

/-! ## The server -/

/-- What the server does with values. -/
structure Server (ν : Type) extends ValueType ν where
  /-- What a column holds once a parameter was sent to it; nothing where the statement fails. -/
  store : PhysicalColumn → QueryParam → Option (Option ν)
  /-- What a column holds that an insert does not name. -/
  default : PhysicalColumn → Option ν
  /-- `column = %s` with a string; nothing where the type of the column can not read it. -/
  equals : PhysicalColumn → List Char → Option (ν → Bool)
  /-- `column ILIKE %s` with a string between percent signs. -/
  ilike : List Char → ν → Bool
  /-- The order of `ORDER BY`, in which NULL is the greatest. -/
  before : Option ν → Option ν → Bool
  /-- `str` of a `float`. -/
  floatText : List Char → List Char

/-- The columns of a table. -/
def Tenant.columnsOf (ten : Tenant) (t : TableKey) : List PhysicalColumn :=
  ten.columns.filter fun c => (c.schema, c.table) == t

/-- The column of a table under a name. -/
def Tenant.column? (ten : Tenant) (t : TableKey) (name : String) : Option PhysicalColumn :=
  (ten.columnsOf t).find? fun c => c.name == name

/-- The foreign keys, as the server enforces them. -/
def Tenant.keys (ten : Tenant) : List TenantKey :=
  ten.foreignKeys.map fun fk =>
    ⟨⟨(fk.schema, fk.table), fk.column, (fk.schema, fk.refTable), fk.refColumn⟩, fk.onDelete⟩

/-- What the row has in the column breaks neither `NOT NULL` nor a unique constraint. -/
def fits (V : ValueType ν) (rows : TenantRows ν) (t : TableKey) (row : Row ν) (c : PhysicalColumn) : Bool :=
  match row.value V c.name with
  | none => !c.notNull
  | some v => !(c.unique && (rows.ofTable t).any fun r => r.id != row.id && (r.value V c.name).any (V.same v))

/-- No foreign key column that has to hold a value was set to NULL. -/
def nullsFit (V : ValueType ν) (ten : Tenant) (rows : TenantRows ν) : Bool :=
  ten.keys.all fun key =>
    !(ten.column? key.table key.column).any (·.notNull) ||
      (rows.ofTable key.table).all fun r => (r.value V key.column).isSome

/-- `SET column = value`. -/
def Row.assign (r : Row ν) (column : String) (v : Option ν) : Row ν :=
  { r with cells := r.cells.filter (fun cell => cell.1 != column) ++ v.toList.map fun v => (column, v) }

/-! ## Errors -/

/-- `RowValueError`, by the column it names. -/
inductive RowError where
  | unknownColumn (name : String)
  /-- "is generated automatically and can't be set" -/
  | generatedColumn (name : String)
  /-- "cannot be modified" -/
  | unmodifiableColumn (name : String)
  /-- "is required" -/
  | requiredColumn (name : String)
  /-- "no fields to update" -/
  | noFields
  /-- `validate_and_convert` refuses the value. -/
  | value (e : RowValueError)

/-- Why a function of `rows.py` raises; `serverError` stands for the errors that no view handles. -/
inductive RowFailure where
  | invalid (e : RowError)
  | notFound
  | serverError

/-! ## Reading -/

/-- The columns of the catalog that `_column_names` lists are there. -/
def readable (ten : Tenant) (t : TableKey) (columns : List DBColumn) : Bool :=
  columns.all fun c => (ten.column? t c.name).isSome

/-- `dict(zip(result_columns, row, strict=True))`. -/
def rowDict (V : ValueType ν) (columns : List DBColumn) (r : Row ν) : List (String × Option ν) :=
  columns.map fun c => (c.name, r.value V c.name)

/-- The text columns of `_text_column_names`. -/
def textColumns (columns : List DBColumn) : List DBColumn :=
  columns.filter fun c => c.dataType == .text || c.dataType == .varchar

/-- `_build_where`, and what the server makes of the clauses. -/
def buildWhere (sv : Server ν) (ten : Tenant) (t : TableKey) (columns : List DBColumn)
    (filters : List (String × List Char)) (search : Option (List Char)) :
    Except RowError (Option (Row ν → Bool)) :=
  match filters.find? fun f => !columns.any fun c => c.name == f.1 with
  | some f => .error (.unknownColumn f.1)
  | none =>
    let clauses := filters.mapM fun f => do
      let c ← ten.column? t f.1
      let p ← sv.equals c f.2
      return fun r : Row ν => (r.value sv.toValueType c.name).any p
    let found (r : Row ν) : Bool :=
      match search with
      | none | some [] => true
      | some text =>
        (textColumns columns).isEmpty ||
          (textColumns columns).any fun c => (r.value sv.toValueType c.name).any (sv.ilike text)
    -- psycopg sends no zero byte
    let sent := (textColumns columns).isEmpty || !(search.getD []).contains '\x00'
    .ok (if sent then clauses.map fun clauses r => clauses.all (fun p => p r) && found r else none)

/-- The query parameters of `RowListCreateView.get`. -/
structure PageQuery where
  limit : Option (List Char)
  offset : Option (List Char)
  ordering : Option (List Char)
  filters : List (String × List Char)
  search : Option (List Char)

/-- What `list_rows` returns. -/
structure Page (ν : Type) where
  count : Nat
  limit : Nat
  offset : Nat
  results : List (List (String × Option ν))

def DEFAULT_LIMIT : Nat := 50

def MAX_LIMIT : Nat := 500

/-- The largest offset the server takes. -/
def maxBigint : Nat := 9223372036854775807

/-- `ORDER BY`: the column, and whether it is descending. -/
def orderOf (columns : List DBColumn) : Option (List Char) → Except RowError (String × Bool)
  | none | some [] => .ok ("id", false)
  | some ordering =>
    let column := String.ofList (ordering.dropWhile (· == '-'))
    if columns.any fun c => c.name == column then .ok (column, ordering.head? == some '-')
    else .error (.unknownColumn column)

/-- `ORDER BY column`. -/
def orderBy (sv : Server ν) (order : String × Bool) (rows : List (Row ν)) : List (Row ν) :=
  let value (r : Row ν) := r.value sv.toValueType order.1
  rows.insertionSort fun r r' =>
    (if order.2 then sv.before (value r') (value r) else sv.before (value r) (value r')) = true

/-- `list_rows`. -/
def listRows (sv : Server ν) (ten : Tenant) (t : TableKey) (columns : List DBColumn) (rows : List (Row ν))
    (limit offset : Int) (q : PageQuery) : Except RowFailure (Page ν) :=
  let limit := (max 1 (min limit MAX_LIMIT)).toNat
  let offset := (max 0 offset).toNat
  match buildWhere sv ten t columns q.filters q.search with
  | .error e => .error (.invalid e)
  | .ok clauses =>
    match orderOf columns q.ordering with
    | .error e => .error (.invalid e)
    | .ok order =>
      match clauses with
      | none => .error .serverError
      | some clauses =>
        if !readable ten t columns || decide (maxBigint < offset) then .error .serverError
        else
          let found := rows.filter clauses
          let page := ((orderBy sv order found).drop offset).take limit
          .ok ⟨found.length, limit, offset, page.map (rowDict sv.toValueType columns)⟩

/-- `get_row`. -/
def getRow (V : ValueType ν) (ten : Tenant) (t : TableKey) (columns : List DBColumn) (rows : List (Row ν))
    (rowId : Uuid) : Except RowFailure (List (String × Option ν)) :=
  if !readable ten t columns then .error .serverError
  else
    match rows.find? fun r => r.id == rowId with
    | none => .error .notFound
    | some r => .ok (rowDict V columns r)

/-! ## Writing -/

/-- `request.data`: an object, or anything else that a parser makes of a body. -/
inductive Body where
  | fields (members : List (List Char × PyJson))
  | other (falsy : Bool)

/-- The loop over `data.items()`: the columns that are set, with their parameters. A primary key is
refused. -/
def assignments (floatText : List Char → List Char) (columns : List DBColumn) (refused : String → RowError) :
    List (List Char × PyJson) → Except RowError (List (String × QueryParam))
  | [] => .ok []
  | (name, value) :: members =>
    match columns.find? fun c => c.name.toList == name with
    | none => .error (.unknownColumn (String.ofList name))
    | some c =>
      if c.isPrimaryKey then .error (refused c.name)
      else
        match validateAndConvert floatText value c.dataType with
        | .error e => .error (.value e)
        | .ok p => (assignments floatText columns refused members).map fun sets => (c.name, p) :: sets

/-- What the columns are set to. -/
def storeAll (sv : Server ν) (ten : Tenant) (t : TableKey) (sets : List (String × QueryParam)) :
    Option (List (PhysicalColumn × Option ν)) :=
  sets.mapM fun set => do
    let c ← ten.column? t set.1
    let v ← sv.store c set.2
    return (c, v)

/-- The first column, by name, that an insert has to set and does not. -/
def missingColumn? (columns : List DBColumn) (sets : List (String × QueryParam)) : Option DBColumn :=
  (columns.insertionSort fun c c' => c.name ≤ c'.name).find? fun c =>
    !c.isPrimaryKey && !c.isNullable && !sets.any fun set => set.1 == c.name

/-- Several assignments, one after another. -/
def assignAll (r : Row ν) (values : List (PhysicalColumn × Option ν)) : Row ν :=
  values.foldl (fun r v => r.assign v.1.name v.2) r

/-- A new row: what is set, and the defaults of the other columns. -/
def newRow (sv : Server ν) (ten : Tenant) (t : TableKey) (id : Uuid)
    (values : List (PhysicalColumn × Option ν)) : Row ν :=
  assignAll ⟨id, (ten.columnsOf t).filterMap fun c => (sv.default c).map fun v => (c.name, v)⟩ values

/-- `insert_row`, where the server draws `id`. -/
def insertRow (sv : Server ν) (ten : Tenant) (t : TableKey) (columns : List DBColumn) (rows : TenantRows ν)
    (body : Body) (id : Uuid) : TenantRows ν × Except RowFailure (List (String × Option ν)) :=
  match body with
  | .other _ => (rows, .error .serverError)
  | .fields members =>
    match assignments sv.floatText columns .generatedColumn members with
    | .error e => (rows, .error (.invalid e))
    | .ok sets =>
      match missingColumn? columns sets with
      | some c => (rows, .error (.invalid (.requiredColumn c.name)))
      | none =>
        match storeAll sv ten t sets with
        | none => (rows, .error .serverError)
        | some values =>
          let new := newRow sv ten t id values
          let after := RowWrite.perform sv.toValueType ten.keys rows (.insert t new)
          if readable ten t columns && !(rows.ofTable t).any (fun r => r.id == id) &&
              (ten.columnsOf t).all (fits sv.toValueType rows t new) &&
              decide (after.Sound sv.toValueType ten.keys) then
            (after, .ok (rowDict sv.toValueType columns new))
          else (rows, .error .serverError)

/-- `update_row`. -/
def updateRow (sv : Server ν) (ten : Tenant) (t : TableKey) (columns : List DBColumn) (rows : TenantRows ν)
    (rowId : Uuid) (body : Body) : TenantRows ν × Except RowFailure (List (String × Option ν)) :=
  match body with
  | .other true | .fields [] => (rows, .error (.invalid .noFields))
  | .other false => (rows, .error .serverError)
  | .fields members =>
    match assignments sv.floatText columns .unmodifiableColumn members with
    | .error e => (rows, .error (.invalid e))
    | .ok sets =>
      match storeAll sv ten t sets with
      | none => (rows, .error .serverError)
      | some values =>
        if !readable ten t columns then (rows, .error .serverError)
        else
          match (rows.ofTable t).find? fun r => r.id == rowId with
          | none => (rows, .error .notFound)
          | some old =>
            let new := assignAll old values
            let after := rows.map fun stored => if storedKey stored = (t, rowId) then (t, new) else stored
            if values.all (fun v => fits sv.toValueType rows t new v.1) &&
                decide (TenantRows.Sound sv.toValueType ten.keys after) then
              (after, .ok (rowDict sv.toValueType columns new))
            else (rows, .error .serverError)

/-- `delete_row`. -/
def deleteRow (V : ValueType ν) (ten : Tenant) (t : TableKey) (rows : TenantRows ν) (rowId : Uuid) :
    TenantRows ν × Except RowFailure Unit :=
  if !ten.tables.contains t then (rows, .error .serverError)
  else if !(rows.ofTable t).any fun r => r.id == rowId then (rows, .error .notFound)
  else
    let after := RowWrite.perform V ten.keys rows (.delete t rowId)
    if nullsFit V ten after && decide (after.Sound V ten.keys) then (after, .ok ())
    else (rows, .error .serverError)

/-! ## Cells that no constraint sees -/

/-- A primary key, unique or foreign key constraint is on the column. -/
def Tenant.constrained (ten : Tenant) (t : TableKey) (column : String) : Bool :=
  column == "id" || (ten.columnsOf t).any (fun c => c.name == column && c.unique) ||
    ten.keys.any fun key =>
      (key.table == t && key.column == column) || (key.refTable == t && key.refColumn == column)

/-- Stored rows that differ in nothing but the cells of one tenant database, in columns without such a
constraint. -/
structure AlikeCells (V : ValueType ν) (ten : Tenant) (database : Uuid) (x y : TableKey × Row ν) : Prop where
  table : x.1 = y.1
  id : x.2.id = y.2.id
  outside : x.1.1.database ≠ database → x.2 = y.2
  constrained : ∀ column, ten.constrained x.1 column = true → x.2.value V column = y.2.value V column

/-- The update sets every column that no constraint is on, or returns no row: it is refused, or there is none
under the key. -/
def Conceals (sv : Server ν) (ten : Tenant) (t : TableKey) (columns : List DBColumn) (rows : TenantRows ν)
    (rowId : Uuid) : Body → Prop
  | .fields members =>
    (∀ c ∈ columns, ten.constrained t c.name = true ∨ c.name.toList ∈ members.map (·.1)) ∨
      (∃ e, assignments sv.floatText columns .unmodifiableColumn members = .error e) ∨
      ∀ r ∈ rows.ofTable t, r.id ≠ rowId
  | .other _ => True

end Databases
