import IntraCloud.Databases.Explorer
import IntraCloud.Transition.Runs

/-!
# What columns can hold

The domains of the column types, for the parameters that `validate_and_convert` makes: `int4` and `int8`,
`VARCHAR(n)`, `NUMERIC(p, s)`, strings without a zero byte. Strings hold no lone surrogates here, and limits of
size are left aside.
-/

namespace Databases

open Python Relational

variable {ν : Type}

/-! ## The domains of the server -/

/-- `INT_MAX / 2`: the server reads no exponents beyond it. -/
def maxWrittenExponent : Int := 1073741823

/-- Rounded to the scale, halves away from zero, the number has at most `precision` digits. -/
def numericHolds (precision scale : Nat) : Decimal → Bool
  | .nan _ _ _ => true
  | .infinity _ => false
  | .finite _ coefficient exponent =>
    let digits := (natText coefficient).length
    let adjusted := exponent + digits - 1
    let shift := exponent + scale
    decide (-maxWrittenExponent < adjusted ∧ adjusted < maxWrittenExponent) &&
      if coefficient = 0 then true
      else if 0 ≤ shift then decide (digits + shift ≤ precision)
      else if digits < -shift then true
      else
        decide ((coefficient + 5 * Nat.pow 10 (-shift - 1).toNat) / Nat.pow 10 (-shift).toNat <
          Nat.pow 10 precision)

/-- `json.dumps` writes a number that is not finite as no JSON number. -/
def finiteFloat (floatText : List Char → List Char) (literal : List Char) : Bool :=
  !List.contains ["inf".toList, "-inf".toList, "nan".toList] (floatText literal)

mutual

/-- `JSONB` holds no zero byte, and no number that is not finite. -/
def documentHolds (floatText : List Char → List Char) : PyJson → Bool
  | .null | .bool _ | .int _ => true
  | .float literal => finiteFloat floatText literal
  | .str s => !s.contains '\x00'
  | .list items => itemsHold floatText items
  | .dict members => membersHold floatText members

def itemsHold (floatText : List Char → List Char) : List PyJson → Bool
  | [] => true
  | v :: vs => documentHolds floatText v && itemsHold floatText vs

def membersHold (floatText : List Char → List Char) : List (List Char × PyJson) → Bool
  | [] => true
  | (k, v) :: ms => !k.contains '\x00' && documentHolds floatText v && membersHold floatText ms

end

/-- A column of the type holds the parameter. `date` and `timestamptz` reach further than `datetime`, `VARCHAR` drops
spaces at the end that are too many, and a UUID is written as `str` writes it. -/
def SqlType.holds (floatText : List Char → List Char) : SqlType → QueryParam → Bool
  | .integer, .plain (.int n) => decide (-2147483648 ≤ n ∧ n ≤ 2147483647)
  | .bigint, .plain (.int n) => decide (-9223372036854775808 ≤ n ∧ n ≤ 9223372036854775807)
  | .numeric p s, .plain (.decimal d) => numericHolds p s d
  | .boolean, .plain (.bool _) => true
  | .date, .plain (.date _) => true
  | .timestamptz, .plain (.datetime _) => true
  | .uuid, .plain (.str s) => (parseUuid? s).any fun n => uuidText n == s
  | .text, .plain (.str s) => !s.contains '\x00'
  | .varchar n, .plain (.str s) => !s.contains '\x00' && (s.drop n).all (· == ' ')
  | .jsonb, .jsonb v => documentHolds floatText v
  | _, _ => false

/-- The column holds the parameter. -/
def PhysicalColumn.holds (floatText : List Char → List Char) (c : PhysicalColumn) : QueryParam → Bool
  | .plain .none => !c.notNull
  | q => c.type.holds floatText q

/-- The server stores what is in the domain of a column. -/
structure Server.Accepts (sv : Server ν) : Prop where
  null : ∀ c, sv.store c (.plain .none) = some none
  holds : ∀ c q, c.type.holds sv.floatText q = true → ∃ v, sv.store c q = some (some v)

/-! ## Tables of the services -/

/-- The columns of a table, in the order they were created. -/
def Catalog.columnsOf (cat : Catalog) (t : DBTable) : List DBColumn := cat.columns.filter (·.table == t.id)

/-- The table has the columns that the services gave it. -/
def AsBuilt (cat : Catalog) (t : DBTable) (ten : Tenant) : Prop :=
  ∀ x, x ∈ ten.columnsOf t.physical ↔ ∃ c ∈ cat.columnsOf t, t.physicalColumn c = x

/-! ## Requests -/

/-- The two requests that write values. The server draws the id of an insert. -/
inductive RowOp where
  | insert (id : Uuid)
  | update (rowId : Uuid)

/-- What the loop over the values raises on a primary key. -/
def RowOp.refusal : RowOp → String → RowError
  | .insert _ => .generatedColumn
  | .update _ => .unmodifiableColumn

/-- `insert_row` or `update_row`. -/
def RowOp.run (op : RowOp) (sv : Server ν) (ten : Tenant) (t : TableKey) (columns : List DBColumn)
    (rows : TenantRows ν) (members : List (List Char × PyJson)) :
    TenantRows ν × Except RowFailure (List (String × Option ν)) :=
  match op with
  | .insert id => insertRow sv ten t columns rows (.fields members) id
  | .update rowId => updateRow sv ten t columns rows rowId (.fields members)

/-- The parameters of the statement, where the validation passes. -/
def RowOp.validated (op : RowOp) (floatText : List Char → List Char) (columns : List DBColumn)
    (members : List (List Char × PyJson)) : Option (List (String × QueryParam)) :=
  match assignments floatText columns op.refusal members with
  | .error _ => none
  | .ok sets =>
    match op with
    | .insert _ => if (missingColumn? columns sets).isSome then none else some sets
    | .update _ => if members.isEmpty then none else some sets

/-- Another row has the value of the row in a unique column. -/
def Duplicates (V : ValueType ν) (rows : TenantRows ν) (t : TableKey) (row : Row ν) (c : PhysicalColumn) :
    Prop :=
  c.unique = true ∧ ∃ v, row.value V c.name = some v ∧
    ∃ r ∈ rows.ofTable t, r.id ≠ row.id ∧ (r.value V c.name).any (V.same v) = true

/-- The statement stores its values and breaks a primary key, a unique constraint or a foreign key. -/
def RowOp.Conflicts (op : RowOp) (sv : Server ν) (ten : Tenant) (t : TableKey) (rows : TenantRows ν)
    (sets : List (String × QueryParam)) : Prop :=
  ∃ values, storeAll sv ten t sets = some values ∧
    match op with
    | .insert id =>
      let new := newRow sv ten t id values
      (∃ r ∈ rows.ofTable t, r.id = id) ∨
        (∃ c ∈ ten.columnsOf t, Duplicates sv.toValueType rows t new c) ∨
          ¬ TenantRows.Sound sv.toValueType ten.keys (rows ++ [(t, new)])
    | .update rowId =>
      ∃ old ∈ rows.ofTable t, old.id = rowId ∧
        ((∃ v ∈ values, Duplicates sv.toValueType rows t (assignAll old values) v.1) ∨
          ¬ TenantRows.Sound sv.toValueType ten.keys
            (rows.map fun stored => if storedKey stored = (t, rowId) then (t, assignAll old values) else stored))

/-- Where the validation passes, every value is in the domain of its column, and the statement fails on
nothing but a conflict. -/
def RowOp.DomainSafe (op : RowOp) (sv : Server ν) (ten : Tenant) (t : TableKey) (columns : List DBColumn)
    (rows : TenantRows ν) (members : List (List Char × PyJson)) : Prop :=
  ∀ sets, op.validated sv.floatText columns members = some sets →
    (∀ set ∈ sets, ∃ x ∈ ten.columnsOf t, x.name = set.1 ∧ x.holds sv.floatText set.2 = true) ∧
      ((op.run sv ten t columns rows members).2 = .error .serverError → op.Conflicts sv ten t rows sets)

/-! ## Values that fit -/

/-- The value is refused, or the column can hold it: what the column type does not say in `data_type`
alone. -/
def Representable (floatText : List Char → List Char) (c : DBColumn) (v : PyJson) : Prop :=
  match v with
  | .null => c.isNullable = true
  | v =>
    match c.dataType with
    | .integer => ∀ n, v = .int n → -2147483648 ≤ n ∧ n ≤ 2147483647
    | .bigint => ∀ n, v = .int n → -9223372036854775808 ≤ n ∧ n ≤ 9223372036854775807
    | .decimal =>
      ∀ d, (strText? floatText v).bind parseDecimal? = some d →
        numericHolds (c.precision.getD 18) (c.scale.getD 4) d = true
    | .text => ∀ s, v = .str s → '\x00' ∉ s
    | .varchar => ∀ s, v = .str s → '\x00' ∉ s ∧ ∀ x ∈ s.drop (c.maxLength.getD 255), x = ' '
    | .json => documentHolds floatText v = true
    | .boolean | .date | .datetime | .uuid => True

/-- The loop over the values raises at the member: it names no column, or the primary key, or has a value that
`validate_and_convert` refuses. -/
def Refused (floatText : List Char → List Char) (columns : List DBColumn) (m : List Char × PyJson) : Prop :=
  ∀ c, columns.find? (fun c => c.name.toList == m.1) = some c →
    c.isPrimaryKey = true ∨ ∃ e, validateAndConvert floatText m.2 c.dataType = .error e

/-- The first column, by name, that has to have a value and is left out. -/
def leftOut? (columns : List DBColumn) (members : List (List Char × PyJson)) : Option DBColumn :=
  (columns.insertionSort fun c c' => c.name ≤ c'.name).find? fun c =>
    !c.isPrimaryKey && !c.isNullable && !members.any fun m => m.1 == c.name.toList

/-- The validation of the request passes. -/
def RowOp.Passes (op : RowOp) (floatText : List Char → List Char) (columns : List DBColumn)
    (members : List (List Char × PyJson)) : Prop :=
  (∀ m ∈ members, ¬ Refused floatText columns m) ∧
    match op with
    | .insert _ => leftOut? columns members = none
    | .update _ => members ≠ []

/-! ## Required columns -/

/-- `insert_row` says that a column is required only where the server would have nothing for it. -/
def RequiredExact (sv : Server ν) (ten : Tenant) (t : TableKey) (columns : List DBColumn) (rows : TenantRows ν)
    (members : List (List Char × PyJson)) (id : Uuid) : Prop :=
  ∀ name, (insertRow sv ten t columns rows (.fields members) id).2 = .error (.invalid (.requiredColumn name)) →
    ∃ x ∈ ten.columnsOf t, x.name = name ∧ x.notNull = true ∧ x.default = .absent ∧
      name.toList ∉ members.map (·.1)

end Databases
