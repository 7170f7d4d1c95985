import IntraCloud.JavaScript.Requests

/-!
# The table view

The controls of the page of a table (`tables/[tableId]/_client.tsx`) and the requests for its rows. Every change of
the controls issues a request, and every response replaces the page that is shown.
-/

namespace Databases

open JavaScript

variable {ρ : Type}

/-! ## Requests -/

def PAGE_SIZE : Nat := 25

/-- `RowsPage`. -/
structure RowsPage (ρ : Type) where
  count : Nat
  limit : Nat
  offset : Nat
  results : List ρ

/-- The parameters of a request for rows. -/
structure RowsQuery where
  limit : Nat
  offset : Nat
  search : Option (List Char)
  deriving DecidableEq, Repr

/-- The parameters that `loadRows` builds. -/
def rowsQuery (newOffset : Nat) (q : List Char) : RowsQuery :=
  ⟨PAGE_SIZE, newOffset, if q.isEmpty then none else some q⟩

/-! ## Controls -/

/-- The state of the component, once its table has been loaded. -/
structure TableView (ρ : Type) where
  offset : Nat
  search : List Char
  requests : Requests RowsQuery (RowsPage ρ)

/-- The page that is shown. -/
def TableView.page (v : TableView ρ) : Option (RowsPage ρ) := v.requests.shown.map (·.2)

def TableView.loadRows (v : TableView ρ) (newOffset : Nat) (q : List Char) : TableView ρ :=
  { v with requests := v.requests.issue (rowsQuery newOffset q) }

/-- `loadAll`. -/
def TableView.mounted : TableView ρ := TableView.loadRows ⟨0, [], Requests.none⟩ 0 []

/-- What happens to the page: a search is typed, a button is pressed, or a request is answered, with an error if
there is no page. -/
inductive ViewEvent (ρ : Type) where
  | typed (text : List Char)
  | previous
  | next
  | answered (k : Nat) (page : Option (RowsPage ρ))

/-- The buttons stand under a table of rows that has more of them than a page. -/
def TableView.paginated (v : TableView ρ) : Option (RowsPage ρ) :=
  v.page.filter fun page => !page.results.isEmpty && decide (PAGE_SIZE < page.count)

/-- The handlers; nothing where the button is not there, or disabled, or the request is not under way. -/
def TableView.step (v : TableView ρ) : ViewEvent ρ → Option (TableView ρ)
  | .typed text => some (TableView.loadRows { v with search := text, offset := 0 } 0 text)
  | .previous =>
    v.paginated.bind fun _ =>
      if v.offset = 0 then none
      else some (TableView.loadRows { v with offset := v.offset - PAGE_SIZE } (v.offset - PAGE_SIZE) v.search)
  | .next =>
    v.paginated.bind fun page =>
      if page.count ≤ v.offset + PAGE_SIZE then none
      else some (TableView.loadRows { v with offset := v.offset + PAGE_SIZE } (v.offset + PAGE_SIZE) v.search)
  | .answered k page => (v.requests.arrive k page).map fun requests => { v with requests := requests }

def TableView.run (v : TableView ρ) : List (ViewEvent ρ) → Option (TableView ρ)
  | [] => some v
  | event :: events => (v.step event).bind fun v' => v'.run events

/-! ## The latest query -/

/-- The page is the response to the request that was issued last, and this one asks for what the controls show. -/
def TableView.ShowsLatest (v : TableView ρ) : Prop :=
  ∃ page, v.requests.shown = some (v.requests.issued.length - 1, page) ∧
    v.requests.issued.getLast? = some (rowsQuery v.offset v.search)

/-- The event issues a request. -/
def ViewEvent.isMove : ViewEvent ρ → Bool
  | .answered _ _ => false
  | _ => true

/-- The request that the event answers with a page. -/
def ViewEvent.answer? : ViewEvent ρ → Option Nat
  | .answered k (some _) => some k
  | _ => none

/-- The last of the answers with a page is that to the last request: the first request is that of `loadAll`, and
each move has issued one more. -/
def LatestLast (events : List (ViewEvent ρ)) : Prop :=
  (events.filterMap ViewEvent.answer?).getLast? = some (events.countP ViewEvent.isMove)

end Databases
