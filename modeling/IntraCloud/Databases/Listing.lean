import IntraCloud.Databases.Explorer
import IntraCloud.Relational.Like
import IntraCloud.Relational.Paging

/-!
# Listing a table page by page

A client that asks `list_rows` for page after page. Each page is a statement of its own, and the server arranges
the rows anew for it, as `ORDER BY` allows.
-/

namespace Databases

open Relational

variable {ν : Type}

/-- `ORDER BY column` lets the first row stand before the second. -/
def orderBefore (sv : Server ν) (order : String × Bool) (r r' : Row ν) : Bool :=
  let value (r : Row ν) := r.value sv.toValueType order.1
  if order.2 then sv.before (value r') (value r) else sv.before (value r) (value r')

/-- How the server arranges rows for an `ORDER BY`. -/
abbrev Arrangement (ν : Type) := String × Bool → List (Row ν) → List (Row ν)

/-- The arrangement is sorted. -/
def Arrangement.Valid (sv : Server ν) (arrange : Arrangement ν) : Prop :=
  ∀ order rows, Arranges (orderBefore sv order) rows (arrange order rows)

/-- The limit that `list_rows` applies. -/
def effectiveLimit (limit : Int) : Nat := (max 1 (min limit MAX_LIMIT)).toNat

/-- `list_rows`, where the server arranges the rows. -/
def listRowsBy (arrange : Arrangement ν) (sv : Server ν) (ten : Tenant) (t : TableKey) (columns : List DBColumn)
    (rows : List (Row ν)) (limit offset : Int) (q : PageQuery) : Except RowFailure (Page ν) :=
  let limit := effectiveLimit limit
  let offset := (max 0 offset).toNat
  match buildWhere sv ten t columns q.filters q.search with
  | .error e => .error (.invalid e)
  | .ok clauses =>
    match orderOf columns q.ordering with
    | .error e => .error (.invalid e)
    | .ok order =>
      match clauses with
      | none => .error .serverError
      | some clauses =>
        if !readable ten t columns || decide (maxBigint < offset) then .error .serverError
        else
          let found := rows.filter clauses
          let page := pageAt limit offset (arrange order found)
          .ok ⟨found.length, limit, offset, page.map (rowDict sv.toValueType columns)⟩

/-- The pages at the offsets `0`, `limit`, `2 * limit` and so on, until the offset reaches the count: the count,
and the results one after another. -/
def listAll (arrange : Nat → Arrangement ν) (sv : Server ν) (ten : Tenant) (t : TableKey)
    (columns : List DBColumn) (rows : List (Row ν)) (limit : Int) (q : PageQuery) :
    Except RowFailure (Nat × List (List (String × Option ν))) :=
  match listRowsBy (arrange 0) sv ten t columns rows limit 0 q with
  | .error e => .error e
  | .ok first =>
    let pages := (List.range (pageCount first.limit first.count)).mapM fun k =>
      listRowsBy (arrange k) sv ten t columns rows limit (k * first.limit) q
    pages.map fun pages => (first.count, pages.flatMap (·.results))

/-- The pages hold these rows, each once, however the server arranges the rows for each page. -/
def PagesComplete (sv : Server ν) (ten : Tenant) (t : TableKey) (columns : List DBColumn) (rows : List (Row ν))
    (limit : Int) (q : PageQuery) (found : List (Row ν)) : Prop :=
  ∀ arrange : Nat → Arrangement ν, (∀ k, (arrange k).Valid sv) →
    ∃ results, listAll arrange sv ten t columns rows limit q = .ok (found.length, results) ∧
      results.Perm (found.map (rowDict sv.toValueType columns))

/-- `ORDER BY` compares any two values, and tells primary keys apart. -/
structure Server.Sorts (sv : Server ν) : Prop where
  total : ∀ a b, sv.before a b = true ∨ sv.before b a = true
  trans : ∀ a b c, sv.before a b = true → sv.before b c = true → sv.before a c = true
  uuids : ∀ x y, sv.before (some (sv.uuid x)) (some (sv.uuid y)) = true →
    sv.before (some (sv.uuid y)) (some (sv.uuid x)) = true → x = y

/-- `list_rows` accepts the query, and selects these rows, in this order. -/
structure Selects (sv : Server ν) (ten : Tenant) (t : TableKey) (columns : List DBColumn) (rows : List (Row ν))
    (q : PageQuery) (order : String × Bool) (found : List (Row ν)) : Prop where
  clauses : ∃ clauses, buildWhere sv ten t columns q.filters q.search = .ok (some clauses) ∧
    rows.filter clauses = found
  order : orderOf columns q.ordering = .ok order
  readable : readable ten t columns = true

/-- The rows that a table can have: no two share a primary key, and there are no more than a `bigint` counts. -/
structure StoredRows (rows : List (Row ν)) : Prop where
  ids : (rows.map (·.id)).Nodup
  count : rows.length ≤ maxBigint

/-! ## Filters and search

What a client of `list_rows` means by filters and by a search string, and the `ILIKE` that is sent for it. Lower
case is taken character by character. -/

/-- `ILIKE` of the server, and the strings that it stores. -/
structure Server.Searches (sv : Server ν) (lower : Char → Char) : Prop where
  folds : Like.Folds lower
  ilike : ∀ search v, Like.ilikes lower ('%' :: search ++ ['%']) (sv.text v) = some (sv.ilike search v)
  texts : ∀ s, '\x00' ∉ s → ∃ v, sv.text v = s

/-- How long a text of the column is at most. -/
def DBColumn.maxText? (c : DBColumn) : Option Nat :=
  match c.dataType with
  | .varchar => some (c.maxLength.getD 255)
  | _ => none

/-- No text is longer than its column allows. -/
def TextsFit (sv : Server ν) (columns : List DBColumn) (rows : List (Row ν)) : Prop :=
  ∀ r ∈ rows, ∀ c ∈ textColumns columns, ∀ v, r.value sv.toValueType c.name = some v →
    ∀ n, c.maxText? = some n → (sv.text v).length ≤ n

/-- The types of the columns can read the values of the filters. -/
def FiltersRead (sv : Server ν) (ten : Tenant) (t : TableKey) (filters : List (String × List Char)) : Prop :=
  ∀ f ∈ filters, ∃ c, ten.column? t f.1 = some c ∧ (sv.equals c f.2).isSome = true

/-- The row equals the value of the filter. -/
def equalsFilter (sv : Server ν) (ten : Tenant) (t : TableKey) (f : String × List Char) (r : Row ν) : Bool :=
  ((ten.column? t f.1).bind fun c => sv.equals c f.2).any fun p => (r.value sv.toValueType f.1).any p

/-- The text contains the search string as it is, ignoring case. -/
def containsText (lower : Char → Char) (search text : List Char) : Bool :=
  decide (search.map lower <:+: text.map lower)

/-- The row equals every filter, and a text column contains the search string. -/
def meets (sv : Server ν) (ten : Tenant) (t : TableKey) (columns : List DBColumn) (lower : Char → Char)
    (filters : List (String × List Char)) (search : List Char) (r : Row ν) : Bool :=
  filters.all (fun f => equalsFilter sv ten t f r) &&
    (search.isEmpty ||
      (textColumns columns).any fun c => (r.value sv.toValueType c.name).any fun v =>
        containsText lower search (sv.text v))

/-- The pages and the count are those of the rows that the client means. -/
def ListedExactly (sv : Server ν) (ten : Tenant) (t : TableKey) (columns : List DBColumn) (lower : Char → Char)
    (rows : List (Row ν)) (filters : List (String × List Char)) (search : List Char) : Prop :=
  ∀ limit : Int, PagesComplete sv ten t columns rows limit ⟨none, none, none, filters, some search⟩
    (rows.filter (meets sv ten t columns lower filters search))

/-- The search string means what it says: it is empty, or there is a text column, and either every character
stands for itself or no text column is long enough for what the pattern asks for. -/
def SearchesLiterally (columns : List DBColumn) (search : List Char) : Prop :=
  search = [] ∨
    (textColumns columns ≠ [] ∧ '\x00' ∉ search ∧
      (Like.Plain search ∨
        ∀ c ∈ textColumns columns, ∃ n, c.maxText? = some n ∧ n < (Like.shortest search).length))

end Databases
