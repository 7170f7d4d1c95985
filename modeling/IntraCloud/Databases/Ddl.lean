import IntraCloud.Python.Numbers

/-!
# Identifiers, column types and defaults

`databases/identifiers.py` and `databases/ddl.py`: what a name, a type and a default must look like
before any SQL is built from them.
-/

namespace Databases

/-- `DBColumn.DataType`. -/
inductive DataType where
  | text
  | varchar
  | integer
  | bigint
  | decimal
  | boolean
  | date
  | datetime
  | uuid
  | json
  deriving DecidableEq, Repr

/-- `^[a-z][a-z0-9_]{0,62}\Z`. -/
def isIdentifier (name : String) : Bool :=
  match name.toList with
  | [] => false
  | c :: cs =>
    c.isLower && cs.length ≤ 62 && cs.all fun c => c.isLower || c.isDigit || c == '_'

def RESERVED_COLUMN_NAMES : List String := ["id"]

/-- `validate_identifier`. -/
def validateIdentifier (name kind : String) : Except String Unit :=
  if isIdentifier name then .ok ()
  else .error (s!"Invalid {kind} '{name}': must start with a lowercase letter and contain only " ++
    "lowercase letters, digits, and underscores, up to 63 characters.")

/-- `validate_column_name`. -/
def validateColumnName (name : String) : Except String Unit :=
  match validateIdentifier name "column name" with
  | .error e => .error e
  | .ok () =>
    if RESERVED_COLUMN_NAMES.contains name then .error s!"Column name '{name}' is reserved."
    else .ok ()

/-- A PostgreSQL column type. -/
inductive SqlType where
  | text
  | varchar (length : Nat)
  | integer
  | bigint
  | numeric (precision scale : Nat)
  | boolean
  | date
  | timestamptz
  | uuid
  | jsonb
  deriving DecidableEq, Repr

def MAX_VARCHAR_LENGTH : Nat := 10485760

def MAX_DECIMAL_PRECISION : Nat := 1000

/-- The type `column_type_sql` spells out, with its defaults for a missing length, precision or
scale. -/
def sqlType (dataType : DataType) (maxLength precision scale : Option Nat) : SqlType :=
  match dataType with
  | .varchar => .varchar (maxLength.getD 255)
  | .decimal => .numeric (precision.getD 18) (scale.getD 4)
  | .text => .text
  | .integer => .integer
  | .bigint => .bigint
  | .boolean => .boolean
  | .date => .date
  | .datetime => .timestamptz
  | .uuid => .uuid
  | .json => .jsonb

/-- `column_type_sql`: only the numbers the type uses are checked. -/
def columnTypeSql (dataType : DataType) (maxLength precision scale : Option Nat) :
    Except String SqlType :=
  match sqlType dataType maxLength precision scale with
  | .varchar n =>
    if 0 < n ∧ n ≤ MAX_VARCHAR_LENGTH then .ok (.varchar n)
    else .error s!"varchar max_length must be between 1 and {MAX_VARCHAR_LENGTH}"
  | .numeric p s =>
    if (0 < p ∧ p ≤ MAX_DECIMAL_PRECISION) ∧ s ≤ p then .ok (.numeric p s)
    else .error "decimal precision/scale out of range (0 <= scale <= precision <= 1000)"
  | type => .ok type

/-- A `default_value` that is not `None`. A float is kept as its `repr`, an array or object as its
JSON text. -/
inductive DefaultValue where
  | bool (b : Bool)
  | str (s : String)
  | int (n : Int)
  | float (repr : String)
  | compound (text : String)
  deriving DecidableEq, Repr

/-- `str(default_value)`. -/
def DefaultValue.pythonStr : DefaultValue → List Char
  | .bool true => "True".toList
  | .bool false => "False".toList
  | .str s => s.toList
  | .int n => Python.intText n
  | .float r => r.toList
  | .compound text => text.toList

/-- A `DEFAULT` clause, or the lack of one. -/
inductive DefaultClause where
  | absent
  | literal (v : DefaultValue)
  | genRandomUuid
  | now
  deriving DecidableEq, Repr

/-- The clause for a default that passed its check. -/
def defaultClause (dataType : DataType) : Option DefaultValue → DefaultClause
  | none => .absent
  | some v =>
    match dataType with
    | .uuid => .genRandomUuid
    | .datetime => .now
    | _ => .literal v

/-- `default_clause_sql`. -/
def defaultClauseSql (dataType : DataType) (defaultValue : Option DefaultValue) :
    Except String DefaultClause :=
  match defaultValue with
  | none => .ok .absent
  | some v =>
    let clause := defaultClause dataType defaultValue
    match dataType, v with
    | .boolean, .bool _ => .ok clause
    | .boolean, _ => .error "Boolean default must be true or false"
    | .uuid, v =>
      if v = .str "gen_random_uuid()" then .ok clause
      else .error
        "The only supported UUID default is the literal string 'gen_random_uuid()'"
    | .datetime, v =>
      if v = .str "now()" then .ok clause
      else .error "The only supported datetime default is the literal string 'now()'"
    | .text, .str _ | .varchar, .str _ => .ok clause
    | .text, _ | .varchar, _ => .error "Text/varchar default must be a string"
    | .integer, .int _ | .bigint, .int _ => .ok clause
    | .integer, _ | .bigint, _ => .error "Integer/bigint default must be an integer"
    | .decimal, v =>
      if (Python.parseDecimal? v.pythonStr).isSome then .ok clause
      else .error "Decimal default must be a numeric value"
    | .json, _ => .ok clause
    | .date, _ => .error "Date column defaults are not supported yet"

theorem columnTypeSql_ok {dataType : DataType} {maxLength precision scale : Option Nat}
    {type : SqlType} (h : columnTypeSql dataType maxLength precision scale = .ok type) :
    type = sqlType dataType maxLength precision scale := by
  unfold columnTypeSql at h
  split at h
  · split at h
    · cases h; symm; assumption
    · cases h
  · split at h
    · cases h; symm; assumption
    · cases h
  · cases h; rfl

theorem defaultClauseSql_ok {dataType : DataType} {defaultValue : Option DefaultValue}
    {clause : DefaultClause} (h : defaultClauseSql dataType defaultValue = .ok clause) :
    clause = defaultClause dataType defaultValue := by
  cases defaultValue with
  | none => cases h; rfl
  | some v =>
    unfold defaultClauseSql at h
    cases dataType <;> cases v <;> dsimp only at h <;> try split at h
    all_goals cases h
    all_goals rfl

end Databases
