import IntraCloud.Databases.Proofs.ListingProofs
import IntraCloud.Databases.Listing
import IntraCloud.Relational.Like

/-!
# Filters and search

The rows listed are those that equal the filters and contain the search string, for every table and all filters
that can be read, exactly where the search string is plain and there is a text column to search.
-/

namespace Databases

open Python Relational Transition

variable {ν : Type} {sv : Server ν} {lower : Char → Char} {ten : Tenant} {t : DBTable} {columns : List DBColumn}
  {filters : List (String × List Char)} {search : List Char} {rows : List (Row ν)}

/-! ## Search -/

/-- In a column that has the text, `ILIKE` finds what contains the search string. -/
theorem ilike_eq (hsearch : sv.Searches lower) (hliteral : Like.Plain search) (v : ν) :
    sv.ilike search v = containsText lower search (sv.text v) := by
  have hplain := Like.ilikes_plain hsearch.folds hliteral (sv.text v)
  rw [hsearch.ilike] at hplain
  exact Option.some.inj hplain

/-- A text that is shorter than what the pattern asks for is not found, and contains nothing. -/
theorem ilike_eq_of_short (hsearch : sv.Searches lower) {v : ν}
    (hshort : (sv.text v).length < (Like.shortest search).length) :
    sv.ilike search v = containsText lower search (sv.text v) := by
  have hnotFound : sv.ilike search v = false := by
    rw [← Bool.not_eq_true]
    intro hfound
    have hle := (Like.ilikes_shortest hsearch.folds search).2 (sv.text v) (by rw [hsearch.ilike, hfound])
    omega
  have hnotContained : containsText lower search (sv.text v) = false := by
    refine decide_eq_false fun hinside => ?_
    have hle := hinside.length_le
    have hshortest := Like.shortest_length_le search
    rw [List.length_map, List.length_map] at hle
    omega
  rw [hnotFound, hnotContained]

/-! ## The clauses -/

theorem clauses_eq (hread : FiltersRead sv ten t.physical filters) :
    ∃ clauses : List (Row ν → Bool),
      (filters.mapM fun f => do
        let c ← ten.column? t.physical f.1
        let p ← sv.equals c f.2
        return fun r : Row ν => (r.value sv.toValueType c.name).any p) = some clauses ∧
      ∀ r, clauses.all (fun p => p r) = filters.all fun f => equalsFilter sv ten t.physical f r := by
  induction filters with
  | nil => exact ⟨[], rfl, fun _ => rfl⟩
  | cons f filters ih =>
    obtain ⟨c, hc, hequals⟩ := hread f (List.mem_cons_self ..)
    obtain ⟨p, hp⟩ := Option.isSome_iff_exists.mp hequals
    obtain ⟨clauses, hclauses, hall⟩ := ih fun x hx => hread x (List.mem_cons_of_mem _ hx)
    have hname : c.name = f.1 := by
      have hfound := List.find?_some hc
      exact beq_iff_eq.mp hfound
    refine ⟨(fun r => (r.value sv.toValueType c.name).any p) :: clauses, ?_, fun r => ?_⟩
    · rw [List.mapM_cons, hclauses, hc]
      simp only [Option.bind_eq_bind, Option.bind_some, hp, Option.pure_def]
    · rw [List.all_cons, List.all_cons, hall r]
      simp only [equalsFilter, hc, Option.bind_some, hp, Option.any_some, hname]

theorem clauses_none (hread : ¬ FiltersRead sv ten t.physical filters) :
    (filters.mapM fun f => do
      let c ← ten.column? t.physical f.1
      let p ← sv.equals c f.2
      return fun r : Row ν => (r.value sv.toValueType c.name).any p) = none := by
  induction filters with
  | nil => exact absurd (fun f hf => absurd hf List.not_mem_nil) hread
  | cons f filters ih =>
    rw [List.mapM_cons]
    cases hc : ten.column? t.physical f.1 with
    | none => rfl
    | some c =>
      cases hp : sv.equals c f.2 with
      | none => simp [hp]
      | some p =>
        have hrest : ¬ FiltersRead sv ten t.physical filters := by
          intro hread'
          refine hread fun x hx => ?_
          rcases List.mem_cons.mp hx with rfl | hmem
          · exact ⟨c, hc, hp ▸ rfl⟩
          · exact hread' x hmem
        rw [ih hrest]
        simp [hp]

/-- The row is one that the clause of the search lets through. -/
def searchClause (sv : Server ν) (columns : List DBColumn) (search : List Char) (r : Row ν) : Bool :=
  search.isEmpty || (textColumns columns).isEmpty ||
    (textColumns columns).any fun c => (r.value sv.toValueType c.name).any (sv.ilike search)

theorem buildWhere_names (hnames : ∀ f ∈ filters, ∃ c ∈ columns, c.name = f.1) :
    filters.find? (fun f => !columns.any fun c => c.name == f.1) = none := by
  refine List.find?_eq_none.mpr fun f hf hnone => ?_
  obtain ⟨c, hc, hname⟩ := hnames f hf
  rw [Bool.not_eq_true', List.any_eq_false] at hnone
  exact hnone c hc (beq_iff_eq.mpr hname)

theorem buildWhere_ok (hnames : ∀ f ∈ filters, ∃ c ∈ columns, c.name = f.1)
    (hread : FiltersRead sv ten t.physical filters) (hsent : textColumns columns = [] ∨ '\x00' ∉ search) :
    ∃ clauses, buildWhere sv ten t.physical columns filters (some search) = .ok (some clauses) ∧
      ∀ r, clauses r =
        (filters.all (fun f => equalsFilter sv ten t.physical f r) && searchClause sv columns search r) := by
  obtain ⟨clauses, hclauses, hall⟩ := clauses_eq hread
  have hsent' : ((textColumns columns).isEmpty || !search.contains '\x00') = true := by
    rcases hsent with hnone | hzero
    · rw [hnone]
      rfl
    · rw [Bool.or_eq_true, Bool.not_eq_true']
      exact Or.inr (by simpa using hzero)
  unfold buildWhere
  rw [buildWhere_names hnames]
  simp only [hclauses, Option.getD_some, hsent', if_true, Option.map_some]
  refine ⟨_, rfl, fun r => ?_⟩
  rw [hall r]
  cases search with
  | nil => rfl
  | cons x search => rfl

theorem buildWhere_none (hnames : ∀ f ∈ filters, ∃ c ∈ columns, c.name = f.1)
    (hfails : ¬ FiltersRead sv ten t.physical filters ∨ textColumns columns ≠ [] ∧ '\x00' ∈ search) :
    buildWhere sv ten t.physical columns filters (some search) = .ok none := by
  unfold buildWhere
  rw [buildWhere_names hnames]
  rcases hfails with hread | ⟨hsome, hzero⟩
  · simp only [clauses_none hread, Option.map_none, ite_self]
  · have hsent : ((textColumns columns).isEmpty || !search.contains '\x00') = false := by
      simp [hsome, hzero]
    simp only [Option.getD_some, hsent, Bool.false_eq_true, if_false]

/-! ## The rows listed -/

theorem searchClause_eq (hsearch : sv.Searches lower) (hliteral : SearchesLiterally columns search)
    (hfits : TextsFit sv columns rows) {r : Row ν} (hr : r ∈ rows) :
    searchClause sv columns search r =
      (search.isEmpty ||
        (textColumns columns).any fun c => (r.value sv.toValueType c.name).any fun v =>
          containsText lower search (sv.text v)) := by
  rcases hliteral with rfl | ⟨htext, -, hmeans⟩
  · rfl
  · have hsame : ∀ c ∈ textColumns columns, ((r.value sv.toValueType c.name).any (sv.ilike search)) =
        (r.value sv.toValueType c.name).any fun v => containsText lower search (sv.text v) := by
      intro c hc
      cases hvalue : r.value sv.toValueType c.name with
      | none => rfl
      | some v =>
        rw [Option.any_some, Option.any_some]
        rcases hmeans with hplain | hshort
        · exact ilike_eq hsearch hplain v
        · obtain ⟨n, hn, hlt⟩ := hshort c hc
          exact ilike_eq_of_short hsearch (Nat.lt_of_le_of_lt (hfits r hr c hc v hvalue n hn) hlt)
    have hnotEmpty : (textColumns columns).isEmpty = false := by
      simpa using htext
    unfold searchClause
    rw [hnotEmpty, Bool.or_false]
    refine congrArg (search.isEmpty || ·) ?_
    rw [Bool.eq_iff_iff, List.any_eq_true, List.any_eq_true]
    refine exists_congr fun c => and_congr_right fun hc => ?_
    rw [hsame c hc]

theorem filter_meets_eq {clauses : Row ν → Bool} (hsearch : sv.Searches lower)
    (hliteral : SearchesLiterally columns search) (hfits : TextsFit sv columns rows)
    (hclauses : ∀ r, clauses r =
      (filters.all (fun f => equalsFilter sv ten t.physical f r) && searchClause sv columns search r)) :
    rows.filter clauses = rows.filter (meets sv ten t.physical columns lower filters search) := by
  refine List.filter_congr fun r hr => ?_
  rw [hclauses r, searchClause_eq hsearch hliteral hfits hr]
  rfl

/-- What the pages count, where the statement does not fail. -/
theorem count_of_complete (hsv : sv.Sorts) {q : PageQuery} {order : String × Bool} {selected meant : List (Row ν)}
    {limit : Int} (hselects : Selects sv ten t.physical columns rows q order selected)
    (hcount : selected.length ≤ maxBigint)
    (hcomplete : PagesComplete sv ten t.physical columns rows limit q meant) :
    meant.length = selected.length := by
  obtain ⟨results, hresults, -⟩ := hcomplete (fun _ => orderBy sv) fun _ => orderBy_valid hsv
  rw [listAll_ok hselects hcount] at hresults
  exact (Prod.mk.inj (Except.ok.inj hresults)).1.symm

theorem not_complete_of_none {limit : Int} {meant : List (Row ν)} (hsv : sv.Sorts)
    (hnone : buildWhere sv ten t.physical columns filters (some search) = .ok none) :
    ¬ PagesComplete sv ten t.physical columns rows limit ⟨none, none, none, filters, some search⟩ meant := by
  intro hcomplete
  obtain ⟨results, hresults, -⟩ := hcomplete (fun _ => orderBy sv) fun _ => orderBy_valid hsv
  unfold listAll listRowsBy at hresults
  simp only [hnone, orderOf] at hresults
  cases hresults

/-- With the default ordering, the pages hold what the clauses select. -/
theorem pagesComplete_default (hsv : sv.Sorts) (hrows : StoredRows rows) {q : PageQuery} {clauses : Row ν → Bool}
    (hreadable : readable ten t.physical columns = true)
    (hwhere : buildWhere sv ten t.physical columns q.filters q.search = .ok (some clauses))
    (horder : q.ordering = none) (limit : Int) :
    PagesComplete sv ten t.physical columns rows limit q (rows.filter clauses) := by
  intro arrange hvalid
  have hselects : Selects sv ten t.physical columns rows q ("id", false) (rows.filter clauses) :=
    ⟨⟨clauses, hwhere, rfl⟩, by rw [horder]; rfl, hreadable⟩
  have hids : ((rows.filter clauses).map (·.id)).Nodup := hrows.ids.sublist (List.filter_sublist.map _)
  have hcount : (rows.filter clauses).length ≤ maxBigint := (List.length_filter_le _ _).trans hrows.count
  refine ⟨_, listAll_ok hselects hcount arrange limit, List.Perm.map _ ?_⟩
  exact pagesOf_perm (orderBefore_total hsv _) (orderBy_valid hsv _ _) (tiesOnOnePage_id hsv hids _)
    (fun k => hvalid k _ _) (count_le_pageCount (effectiveLimit_pos limit) _)

/-- A row with one cell. -/
theorem value_single {V : ValueType ν} {id : Uuid} {name column : String} {v v' : ν} (hid : column ≠ "id")
    (h : Row.value V ⟨id, [(name, v)]⟩ column = some v') : name = column ∧ v' = v := by
  rw [Row.value, if_neg hid, List.find?_cons] at h
  by_cases hname : name = column
  · rw [beq_iff_eq.mpr hname] at h
    exact ⟨hname, (Option.some.inj h).symm⟩
  · rw [beq_false_of_ne hname] at h
    cases h

/-- A table of one row tells a search that is not literal from what is meant. -/
theorem literally_of_exact (hsv : sv.Sorts) (hsearch : sv.Searches lower)
    (hreadable : readable ten t.physical columns = true) (hnotId : ∀ c ∈ textColumns columns, c.name ≠ "id")
    (hunique : ∀ c ∈ columns, ∀ c' ∈ columns, c.name = c'.name → c = c')
    (hexact : ∀ rows, StoredRows rows → TextsFit sv columns rows →
      ListedExactly sv ten t.physical columns lower rows [] search) : SearchesLiterally columns search := by
  by_cases hempty : search = []
  · exact Or.inl hempty
  have hagree : (textColumns columns = [] ∨ '\x00' ∉ search) → ∀ r : Row ν, TextsFit sv columns [r] →
      searchClause sv columns search r = meets sv ten t.physical columns lower [] search r := by
    intro hsent r hfits
    have hone : StoredRows [r] := ⟨List.nodup_singleton _, show 1 ≤ maxBigint by decide⟩
    have hbuild : ∃ clauses : Row ν → Bool,
        buildWhere sv ten t.physical columns [] (some search) = .ok (some clauses) ∧
          ∀ r, clauses r = searchClause sv columns search r :=
      buildWhere_ok (fun f hf => absurd hf List.not_mem_nil) (fun f hf => absurd hf List.not_mem_nil) hsent
    obtain ⟨clauses, hwhere, hclauses⟩ := hbuild
    have hselects : Selects sv ten t.physical columns [r] ⟨none, none, none, [], some search⟩ ("id", false)
        ([r].filter clauses) := ⟨⟨clauses, hwhere, rfl⟩, rfl, hreadable⟩
    have hlength := count_of_complete hsv hselects ((List.length_filter_le _ _).trans hone.count)
      (hexact [r] hone hfits 1)
    rw [← hclauses r]
    cases hclause : clauses r <;> cases hmeets : meets sv ten t.physical columns lower [] search r
    · rfl
    · simp [hclause, hmeets] at hlength
    · simp [hclause, hmeets] at hlength
    · rfl
  by_cases htext : textColumns columns = []
  · have hall := hagree (Or.inl htext) ⟨0, []⟩ fun _ _ c hc => absurd (htext ▸ hc) List.not_mem_nil
    simp [searchClause, meets, htext, hempty] at hall
  by_cases hzero : '\x00' ∈ search
  · have hnone : buildWhere sv ten t.physical columns [] (some search) = .ok none :=
      buildWhere_none (fun f hf => absurd hf List.not_mem_nil) (Or.inr ⟨htext, hzero⟩)
    exact absurd (hexact [] ⟨List.nodup_nil, Nat.zero_le _⟩ (fun r hr => absurd hr List.not_mem_nil) 1)
      (not_complete_of_none hsv hnone)
  refine Or.inr ⟨htext, hzero, ?_⟩
  by_contra hnot
  obtain ⟨hplain, hroom⟩ := not_or.mp hnot
  push Not at hroom
  obtain ⟨c, hc, hroom⟩ := hroom
  have hcolumn := (List.mem_filter.mp hc).1
  have hzero' : '\x00' ∉ Like.shortest search := by
    intro hmem
    rcases Like.mem_shortest hmem with hmem | hx | hpercent
    · exact hzero hmem
    · cases hx
    · cases hpercent
  obtain ⟨v, hv⟩ := hsearch.texts _ hzero'
  have hvalue : Row.value sv.toValueType ⟨0, [(c.name, v)]⟩ c.name = some v := by
    rw [Row.value, if_neg (hnotId c hc), List.find?_cons, beq_self_eq_true]
    rfl
  have hfits : TextsFit sv columns [⟨0, [(c.name, v)]⟩] := by
    intro r hr c' hc' v' hv' n hn
    obtain rfl := List.mem_singleton.mp hr
    obtain ⟨hname, rfl⟩ := value_single (hnotId c' hc') hv'
    obtain rfl := hunique c hcolumn c' (List.mem_filter.mp hc').1 hname
    rw [hv]
    exact hroom n hn
  have hmatch : sv.ilike search v = true := by
    have hshortest := (Like.ilikes_shortest hsearch.folds search).1
    rw [← hv, hsearch.ilike] at hshortest
    exact Option.some.inj hshortest
  have hfound : searchClause sv columns search ⟨0, [(c.name, v)]⟩ = true := by
    rw [searchClause, Bool.or_eq_true, List.any_eq_true]
    exact Or.inr ⟨c, hc, by rw [hvalue, Option.any_some, hmatch]⟩
  have hmeant : meets sv ten t.physical columns lower [] search ⟨0, [(c.name, v)]⟩ = false := by
    rw [meets, List.all_nil, Bool.true_and, Bool.or_eq_false_iff, List.any_eq_false]
    refine ⟨by simpa using hempty, fun c' hc' hcontains => ?_⟩
    obtain ⟨v', hv', hinside⟩ := (Option.any_eq_true _ _).mp hcontains
    obtain ⟨-, rfl⟩ := value_single (hnotId c' hc') hv'
    replace hinside := of_decide_eq_true hinside
    rw [hv] at hinside
    exact Like.not_infix_shortest hsearch.folds hplain hinside
  rw [hagree (Or.inr hzero) _ hfits, hmeant] at hfound
  cases hfound

/-! ## The columns -/

theorem idUuid_of_run {s : State} {as : List Action} (hcat : s.catalog = Catalog.empty)
    (hten : s.tenant = Tenant.empty) :
    ∀ c ∈ (run step s as).catalog.columns, c.name = "id" → c.dataType = .uuid :=
  columns_of_run (P := fun c => c.name = "id" → c.dataType = .uuid) (fun _ _ => rfl)
    (fun _ _ _ _ hspec hid => absurd hid (columnDdl_name hspec)) hcat hten as

theorem textColumns_ne_id {s : State} {as : List Action} (hcat : s.catalog = Catalog.empty)
    (hten : s.tenant = Tenant.empty) {c : DBColumn}
    (hc : c ∈ textColumns ((run step s as).catalog.columnsOf t)) : c.name ≠ "id" := by
  intro hid
  obtain ⟨hmem, htext⟩ := List.mem_filter.mp hc
  rw [idUuid_of_run hcat hten c (List.mem_filter.mp hmem).1 hid] at htext
  cases htext

/-! ## The statement -/

/-- Where filters can not be read the request fails, and otherwise the rows listed are the ones meant, exactly
where the search string means what it says. -/
theorem listedExactly_iff (s : State) (as : List Action) (hcat : s.catalog = Catalog.empty)
    (hten : s.tenant = Tenant.empty) (t : DBTable) (ten : Tenant)
    (hbuilt : AsBuilt (run step s as).catalog t ten) (sv : Server ν) (hsv : sv.Sorts) (lower : Char → Char)
    (hsearch : sv.Searches lower) (search : List Char) :
    (∀ filters, (∀ f ∈ filters, ∃ c ∈ (run step s as).catalog.columnsOf t, c.name = f.1) →
      ¬ FiltersRead sv ten t.physical filters → ∀ rows,
        ¬ ListedExactly sv ten t.physical ((run step s as).catalog.columnsOf t) lower rows filters search) ∧
    ((∀ filters, (∀ f ∈ filters, ∃ c ∈ (run step s as).catalog.columnsOf t, c.name = f.1) →
      FiltersRead sv ten t.physical filters → ∀ rows, StoredRows rows →
        TextsFit sv ((run step s as).catalog.columnsOf t) rows →
          ListedExactly sv ten t.physical ((run step s as).catalog.columnsOf t) lower rows filters search) ↔
      SearchesLiterally ((run step s as).catalog.columnsOf t) search) := by
  have hreadable := (builtColumns_of_run hcat hten hbuilt).readable
  have hunique := (builtColumns_of_run hcat hten hbuilt).names
  have hnotId : ∀ c ∈ textColumns ((run step s as).catalog.columnsOf t), c.name ≠ "id" :=
    fun c hc => textColumns_ne_id hcat hten hc
  generalize (run step s as).catalog.columnsOf t = columns at *
  refine ⟨fun filters hnames hunread rows hexact => ?_, fun hexact => ?_, fun hliteral => ?_⟩
  · exact not_complete_of_none hsv (buildWhere_none hnames (Or.inl hunread)) (hexact 1)
  · exact literally_of_exact hsv hsearch hreadable hnotId hunique fun rows hrows hfits =>
      hexact [] (fun f hf => absurd hf List.not_mem_nil) (fun f hf => absurd hf List.not_mem_nil) rows hrows hfits
  · intro filters hnames hread rows hrows hfits limit
    have hsent : textColumns columns = [] ∨ '\x00' ∉ search := by
      rcases hliteral with rfl | ⟨-, hzero, -⟩
      · exact Or.inr List.not_mem_nil
      · exact Or.inr hzero
    obtain ⟨clauses, hwhere, hclauses⟩ := buildWhere_ok hnames hread hsent
    rw [← filter_meets_eq hsearch hliteral hfits hclauses]
    exact pagesComplete_default hsv hrows hreadable hwhere rfl limit

/-! ## A table of notes -/

/-- A server of texts and primary keys, with a lower case for ASCII letters. -/
def textServer : Server (Uuid ⊕ List Char) where
  uuid := .inl
  same
    | .inl x, .inl y => x == y
    | .inr s, .inr t => s == t
    | _, _ => false
  text
    | .inl x => uuidText x
    | .inr s => s
  store _ _ := none
  default _ := none
  equals c s :=
    match c.type with
    | .text => some fun v => v == .inr s
    | _ => none
  ilike search v :=
    let text := match v with
      | .inl x => uuidText x
      | .inr s => s
    (Like.ilikes Char.toLower ('%' :: search ++ ['%']) text).getD false
  before
    | _, none => true
    | none, some _ => false
    | some (.inl x), some (.inl y) => decide (x ≤ y)
    | some (.inl _), some (.inr _) => true
    | some (.inr _), some (.inl _) => false
    | some (.inr _), some (.inr _) => true
  floatText := id

theorem textServer_sorts : textServer.Sorts := by
  refine ⟨fun a b => ?_, fun a b c hab hbc => ?_, fun x y hxy hyx => ?_⟩
  · rcases a with _ | x | s <;> rcases b with _ | y | t
    case some.inl.some.inl => exact (Nat.le_total x y).imp decide_eq_true decide_eq_true
    all_goals first | exact Or.inl rfl | exact Or.inr rfl
  · rcases a with _ | x | s <;> rcases b with _ | y | t <;> rcases c with _ | z | u
    case some.inl.some.inl.some.inl =>
      exact decide_eq_true (Nat.le_trans (of_decide_eq_true hab) (of_decide_eq_true hbc))
    all_goals first | exact Bool.noConfusion hab | exact Bool.noConfusion hbc | rfl
  · exact Nat.le_antisymm (of_decide_eq_true hxy) (of_decide_eq_true hyx)

theorem folds_toLower : Like.Folds Char.toLower := by
  intro w hw c
  have hrange : w.val.toNat < 97 ∧ ¬ (65 ≤ w.val.toNat ∧ w.val.toNat ≤ 90) := by
    simp only [Like.wildcards, List.mem_cons, List.not_mem_nil, or_false] at hw
    rcases hw with rfl | rfl | rfl <;> decide
  unfold Char.toLower
  split_ifs with hupper
  · have hto : c.val.toNat ≤ 90 := hupper.2
    have hfrom : 65 ≤ c.val.toNat := hupper.1
    have hshift : ('a'.val - 'A'.val).toNat = 32 := rfl
    have hlower : (c.val + ('a'.val - 'A'.val)).toNat = c.val.toNat + 32 := by
      rw [UInt32.toNat_add, hshift]
      exact Nat.mod_eq_of_lt (by omega)
    constructor
    · intro h
      have hval : (c.val + ('a'.val - 'A'.val)).toNat = w.val.toNat :=
        congrArg (fun x : Char => x.val.toNat) h
      omega
    · rintro rfl
      exact absurd ⟨hfrom, hto⟩ hrange.2
  · rfl

theorem textServer_searches : textServer.Searches Char.toLower where
  folds := folds_toLower
  ilike search v := by
    have hsome := Like.ilikes_isSome folds_toLower search (textServer.text v)
    have heq : textServer.ilike search v =
        (Like.ilikes Char.toLower ('%' :: search ++ ['%']) (textServer.text v)).getD false := by
      cases v <;> rfl
    rw [heq, ← Option.get_eq_getD (h := hsome), Option.some_get]
  texts s _ := ⟨.inr s, rfl⟩

/-- The table 102, of titles. -/
def noteTable : List Action :=
  [ask (.createTenantDatabase 5 "crm"), ask (.createTable 100 "notes"),
    ask (.addColumn 102 { name := "title", dataType := .text })]

def noteRow : DBTable := { id := 102, tenantDatabase := 100, name := "notes" }

theorem asBuilt_notes : AsBuilt (run step emptyProject noteTable).catalog noteRow
    (run step emptyProject noteTable).tenant := by
  have heq : (run step emptyProject noteTable).tenant.columnsOf noteRow.physical =
      ((run step emptyProject noteTable).catalog.columnsOf noteRow).map noteRow.physicalColumn := by
    decide
  intro x
  rw [heq, List.mem_map]

theorem listedExactly_iff_notes :
    (∀ filters, (∀ f ∈ filters, ∃ c ∈ (run step emptyProject noteTable).catalog.columnsOf noteRow, c.name = f.1) →
      ¬ FiltersRead textServer (run step emptyProject noteTable).tenant noteRow.physical filters → ∀ rows,
        ¬ ListedExactly textServer (run step emptyProject noteTable).tenant noteRow.physical
          ((run step emptyProject noteTable).catalog.columnsOf noteRow) Char.toLower rows filters "10".toList) ∧
    ((∀ filters, (∀ f ∈ filters, ∃ c ∈ (run step emptyProject noteTable).catalog.columnsOf noteRow, c.name = f.1) →
      FiltersRead textServer (run step emptyProject noteTable).tenant noteRow.physical filters →
        ∀ rows, StoredRows rows →
          TextsFit textServer ((run step emptyProject noteTable).catalog.columnsOf noteRow) rows →
            ListedExactly textServer (run step emptyProject noteTable).tenant noteRow.physical
              ((run step emptyProject noteTable).catalog.columnsOf noteRow) Char.toLower rows filters
              "10".toList) ↔
      SearchesLiterally ((run step emptyProject noteTable).catalog.columnsOf noteRow) "10".toList) :=
  listedExactly_iff emptyProject noteTable rfl rfl noteRow _ asBuilt_notes textServer textServer_sorts Char.toLower
    textServer_searches "10".toList

/-- Searching for `10%` finds the title `100`. -/
theorem not_listedExactly_of_percent :
    AsBuilt (run step emptyProject noteTable).catalog noteRow (run step emptyProject noteTable).tenant ∧
      ¬ ListedExactly textServer (run step emptyProject noteTable).tenant noteRow.physical
        ((run step emptyProject noteTable).catalog.columnsOf noteRow) Char.toLower
        [⟨1, [("title", .inr "100".toList)]⟩] [] "10%".toList := by
  refine ⟨asBuilt_notes, fun hexact => ?_⟩
  obtain ⟨results, hresults, -⟩ := hexact 50 (fun _ => orderBy textServer) fun _ => orderBy_valid textServer_sorts
  have hfound : listAll (fun _ => orderBy textServer) textServer (run step emptyProject noteTable).tenant
      noteRow.physical ((run step emptyProject noteTable).catalog.columnsOf noteRow)
      [⟨1, [("title", .inr "100".toList)]⟩] 50 ⟨none, none, none, [], some "10%".toList⟩ =
        .ok (1, [[("id", some (.inl 1)), ("title", some (.inr "100".toList))]]) := rfl
  rw [hfound] at hresults
  have hcount := (Prod.mk.inj (Except.ok.inj hresults)).1
  revert hcount
  decide

end Databases
