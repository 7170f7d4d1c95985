import IntraCloud.Databases.Listing
import IntraCloud.Databases.Proofs.DomainsProofs
import IntraCloud.Relational.Paging

/-!
# Listing a table page by page

Page after page, `list_rows` returns the rows that its clauses select, each once, exactly where no page ends among
rows that the ordering leaves tied. The default ordering leaves none tied.
-/

namespace Databases

open Python Relational Transition

variable {ν : Type} {sv : Server ν} {ten : Tenant} {key : TableKey} {columns : List DBColumn}
  {rows found : List (Row ν)} {q : PageQuery} {order : String × Bool}

/-! ## The order -/

theorem orderBefore_total (hsv : sv.Sorts) (order : String × Bool) (r r' : Row ν) :
    orderBefore sv order r r' = true ∨ orderBefore sv order r' r = true := by
  unfold orderBefore
  by_cases hdesc : order.2 = true
  · simp only [if_pos hdesc]
    exact hsv.total _ _
  · simp only [if_neg hdesc]
    exact hsv.total _ _

theorem orderBefore_trans (hsv : sv.Sorts) (order : String × Bool) (r r' r'' : Row ν)
    (h : orderBefore sv order r r' = true) (h' : orderBefore sv order r' r'' = true) :
    orderBefore sv order r r'' = true := by
  unfold orderBefore at *
  by_cases hdesc : order.2 = true
  · simp only [if_pos hdesc] at *
    exact hsv.trans _ _ _ h' h
  · simp only [if_neg hdesc] at *
    exact hsv.trans _ _ _ h h'

/-- The order by insertion is one that the server may take. -/
theorem orderBy_valid (hsv : sv.Sorts) : Arrangement.Valid sv (orderBy sv) := by
  intro order rows
  have htotal : Std.Total fun r r' => orderBefore sv order r r' = true := ⟨orderBefore_total hsv order⟩
  have htrans : IsTrans (Row ν) fun r r' => orderBefore sv order r r' = true :=
    ⟨orderBefore_trans hsv order⟩
  exact ⟨List.perm_insertionSort _ rows, List.pairwise_insertionSort _ rows⟩

theorem listRows_eq (sv : Server ν) (ten : Tenant) (t : TableKey) (columns : List DBColumn) (rows : List (Row ν))
    (limit offset : Int) (q : PageQuery) :
    listRows sv ten t columns rows limit offset q =
      listRowsBy (orderBy sv) sv ten t columns rows limit offset q := rfl

/-- The primary key leaves no rows tied. -/
theorem tiesOnOnePage_id (hsv : sv.Sorts) (hids : (found.map (·.id)).Nodup) (limit : Nat) :
    TiesOnOnePage (orderBefore sv ("id", false)) limit found := by
  refine tiesOnOnePage_of_antisymm (orderBefore_trans hsv _) (orderBy_valid hsv _ found) hids.of_map ?_
  intro r hr r' hr' hbefore hafter
  have hvalue : ∀ r : Row ν, r.value sv.toValueType "id" = some (sv.uuid r.id) := fun r => if_pos rfl
  simp only [orderBefore, hvalue, Bool.false_eq_true, if_false] at hbefore hafter
  exact List.inj_on_of_nodup_map hids hr hr' (hsv.uuids _ _ hbefore hafter)

/-! ## The pages -/

theorem mapM_ok {ε α β : Type} {f : α → Except ε β} {g : α → β} {l : List α}
    (h : ∀ x ∈ l, f x = .ok (g x)) : l.mapM f = .ok (l.map g) := by
  induction l with
  | nil => rfl
  | cons x l ih =>
    rw [List.mapM_cons, h x (List.mem_cons_self ..), ih fun y hy => h y (List.mem_cons_of_mem _ hy)]
    rfl

theorem effectiveLimit_pos (limit : Int) : 0 < effectiveLimit limit := by
  unfold effectiveLimit
  omega

theorem listRowsBy_ok (h : Selects sv ten key columns rows q order found) (arrange : Arrangement ν) (limit : Int)
    {offset : Nat} (hoffset : offset ≤ maxBigint) :
    listRowsBy arrange sv ten key columns rows limit offset q =
      .ok ⟨found.length, effectiveLimit limit, offset,
        (pageAt (effectiveLimit limit) offset (arrange order found)).map (rowDict sv.toValueType columns)⟩ := by
  obtain ⟨clauses, hclauses, rfl⟩ := h.clauses
  have hoffset' : (max 0 (offset : Int)).toNat = offset := by omega
  have hfits : decide (maxBigint < offset) = false := decide_eq_false (Nat.not_lt.mpr hoffset)
  unfold listRowsBy
  simp only [hclauses, h.order, h.readable, hoffset', hfits]
  rfl

/-- All pages together, in any arrangements. -/
theorem listAll_ok (h : Selects sv ten key columns rows q order found) (hcount : found.length ≤ maxBigint)
    (arrange : Nat → Arrangement ν) (limit : Int) :
    listAll arrange sv ten key columns rows limit q =
      .ok (found.length,
        (pagesOf (effectiveLimit limit) (pageCount (effectiveLimit limit) found.length)
          fun k => arrange k order found).map (rowDict sv.toValueType columns)) := by
  have hpos := effectiveLimit_pos limit
  have hfirst := listRowsBy_ok h (arrange 0) limit (Nat.zero_le maxBigint)
  have hpages : ∀ k ∈ List.range (pageCount (effectiveLimit limit) found.length),
      listRowsBy (arrange k) sv ten key columns rows limit (k * (effectiveLimit limit : Int)) q = .ok
        ⟨found.length, effectiveLimit limit, k * effectiveLimit limit,
          (pageAt (effectiveLimit limit) (k * effectiveLimit limit) (arrange k order found)).map
            (rowDict sv.toValueType columns)⟩ := by
    intro k hk
    have hoffset : k * effectiveLimit limit ≤ maxBigint := by
      have hlt := List.mem_range.mp hk
      unfold pageCount at hlt
      have hle := (Nat.le_div_iff_mul_le hpos).mp (Nat.succ_le_of_lt hlt)
      rw [Nat.succ_mul] at hle
      omega
    have hpage := listRowsBy_ok h (arrange k) limit hoffset
    rwa [Int.natCast_mul] at hpage
  unfold listAll
  rw [Int.natCast_zero] at hfirst
  rw [hfirst]
  dsimp only
  rw [mapM_ok hpages]
  simp only [Except.map, List.flatMap_map, pagesOf, List.map_flatMap]

/-! ## The catalog -/

/-- Every table has a column of the name `id`. -/
def Catalog.HasIds (cat : Catalog) : Prop := ∀ t ∈ cat.tables, ∃ c ∈ cat.columnsOf t, c.name = "id"

theorem Catalog.HasIds.change {cat cat' : Catalog} {fresh : Uuid} (hw : WellFormed cat fresh) (h : cat.HasIds)
    (hchange : CatalogChange cat fresh cat') : cat'.HasIds := by
  have hdelete : ∀ gone, (cat.deleteTables gone).HasIds := by
    intro gone t ht
    obtain ⟨hmem, hkept⟩ := List.mem_filter.mp ht
    obtain ⟨c, hc, hname⟩ := h t hmem
    obtain ⟨hc, htable⟩ := List.mem_filter.mp hc
    refine ⟨c, List.mem_filter.mpr ⟨List.mem_filter.mpr ⟨hc, ?_⟩, htable⟩, hname⟩
    rwa [goneTable_eq hw.toTableRows hmem (eq_of_beq htable).symm]
  have hconcat : ∀ {c : DBColumn}, Catalog.HasIds { cat with columns := cat.columns ++ [c] } := by
    intro c t ht
    obtain ⟨x, hx, hname⟩ := h t ht
    obtain ⟨hx, htable⟩ := List.mem_filter.mp hx
    exact ⟨x, List.mem_filter.mpr ⟨List.mem_append_left _ hx, htable⟩, hname⟩
  cases hchange with
  | database project name hname hwrite =>
    obtain rfl := insertDatabase_some hwrite
    exact h
  | table d name hd hname hwrite =>
    obtain ⟨-, -, rfl⟩ := insertTable_some hwrite
    intro t ht
    rcases List.mem_append.mp ht with hold | hnew
    · exact hconcat t hold
    · obtain rfl := List.mem_singleton.mp hnew
      exact ⟨newPrimaryKey fresh, List.mem_filter.mpr ⟨List.mem_concat_self, beq_self_eq_true _⟩, rfl⟩
  | column t spec x ht hspec hwrite =>
    obtain ⟨-, -, rfl⟩ := insertColumn_some hwrite
    exact hconcat
  | foreignKey c t rt rc onDelete hc ht hct hrt hrc hvalid hwrite =>
    obtain ⟨-, rfl⟩ := insertForeignKey_some hwrite
    exact h
  | deleteTable t => exact hdelete _
  | deleteDatabase d => exact hdelete _

theorem hasIds_of_run {s : State} {as : List Action} (hcat : s.catalog = Catalog.empty)
    (hten : s.tenant = Tenant.empty) : (run step s as).catalog.HasIds :=
  (catalog_of_run (fun _ ht => absurd ht List.not_mem_nil) (fun hw hids hchange => hids.change hw hchange)
    hcat hten as).2

/-! ## Completeness -/

theorem lookup_rowDict (V : ValueType ν) (r : Row ν) {c : DBColumn} (hc : c ∈ columns) :
    (rowDict V columns r).lookup c.name = some (r.value V c.name) := by
  induction columns with
  | nil => cases hc
  | cons x columns ih =>
    show (List.lookup c.name ((x.name, r.value V x.name) :: rowDict V columns r)) = _
    rw [List.lookup_cons]
    by_cases hname : c.name = x.name
    · rw [beq_iff_eq.mpr hname, hname]
    · rw [beq_false_of_ne hname]
      rcases List.mem_cons.mp hc with rfl | hmem
      · exact absurd rfl hname
      · exact ih hmem

/-- A row that stands on two pages is in the results twice. -/
theorem nodup_of_results {l : List (Row ν)} (hsv : sv.Sorts) (hids : (found.map (·.id)).Nodup) {c : DBColumn}
    (hc : c ∈ columns) (hname : c.name = "id")
    (hperm : (l.map (rowDict sv.toValueType columns)).Perm (found.map (rowDict sv.toValueType columns))) :
    l.Nodup := by
  have hinjective : Function.Injective sv.uuid := by
    intro x y hxy
    have hrefl : ∀ z : Uuid, sv.before (some (sv.uuid z)) (some (sv.uuid z)) = true :=
      fun z => (hsv.total _ _).elim id id
    exact hsv.uuids x y (hxy ▸ hrefl x) (hxy ▸ hrefl x)
  have hlookup : ∀ r : Row ν, (rowDict sv.toValueType columns r).lookup "id" = some (some (sv.uuid r.id)) := by
    intro r
    rw [← hname, lookup_rowDict _ r hc, hname]
    exact congrArg some (if_pos rfl)
  have hkeys := hperm.map fun dict => dict.lookup "id"
  simp only [List.map_map, Function.comp_def, hlookup] at hkeys
  have hnodup : (found.map fun r => some (some (sv.uuid r.id))).Nodup := by
    have hmap := hids.map (f := fun x => some (some (sv.uuid x))) fun x y hxy =>
      hinjective (Option.some.inj (Option.some.inj hxy))
    rwa [List.map_map] at hmap
  exact (hkeys.nodup_iff.mpr hnodup).of_map

/-- Whatever the server makes of ties, the pages are complete exactly where no page ends among tied rows. -/
theorem pagesComplete_iff (s : State) (as : List Action) (hcat : s.catalog = Catalog.empty)
    (hten : s.tenant = Tenant.empty) (t : DBTable) (ht : t ∈ (run step s as).catalog.tables) (ten : Tenant)
    (hbuilt : AsBuilt (run step s as).catalog t ten) (sv : Server ν) (hsv : sv.Sorts) (rows : List (Row ν))
    (hrows : StoredRows rows) (limit : Int) (q : PageQuery) (clauses : Row ν → Bool) (order : String × Bool)
    (hclauses : buildWhere sv ten t.physical ((run step s as).catalog.columnsOf t) q.filters q.search =
      .ok (some clauses))
    (horder : orderOf ((run step s as).catalog.columnsOf t) q.ordering = .ok order) :
    PagesComplete sv ten t.physical ((run step s as).catalog.columnsOf t) rows limit q (rows.filter clauses) ↔
      TiesOnOnePage (orderBefore sv order) (effectiveLimit limit) (rows.filter clauses) := by
  have hselects : Selects sv ten t.physical ((run step s as).catalog.columnsOf t) rows q order
      (rows.filter clauses) :=
    ⟨⟨clauses, hclauses, rfl⟩, horder, (builtColumns_of_run hcat hten hbuilt).readable⟩
  have hcount : (rows.filter clauses).length ≤ maxBigint := (List.length_filter_le _ _).trans hrows.count
  have hids : ((rows.filter clauses).map (·.id)).Nodup := hrows.ids.sublist (List.filter_sublist.map _)
  have hpages := count_le_pageCount (effectiveLimit_pos limit) (rows.filter clauses).length
  constructor
  · intro hcomplete
    refine tiesOnOnePage_of_nodup (orderBefore_trans hsv order) (orderBy_valid hsv order _) hpages ?_
    intro arranged harranged
    classical
    let arrange : Nat → Arrangement ν := fun k o l =>
      if o = order ∧ l = rows.filter clauses then arranged k else orderBy sv o l
    have hvalid : ∀ k, (arrange k).Valid sv := by
      intro k o l
      by_cases hmine : o = order ∧ l = rows.filter clauses
      · obtain ⟨rfl, rfl⟩ := hmine
        simp only [arrange, and_self, if_true]
        exact harranged k
      · simp only [arrange, if_neg hmine]
        exact orderBy_valid hsv o l
    obtain ⟨results, hresults, hperm⟩ := hcomplete arrange hvalid
    rw [listAll_ok hselects hcount arrange limit] at hresults
    obtain rfl := (Prod.mk.inj (Except.ok.inj hresults)).2
    have harrange : ∀ k, arrange k order (rows.filter clauses) = arranged k :=
      fun k => if_pos ⟨rfl, rfl⟩
    simp only [harrange] at hperm
    obtain ⟨c, hc, hname⟩ := hasIds_of_run hcat hten t ht
    exact nodup_of_results hsv hids hc hname hperm
  · intro hties arrange hvalid
    refine ⟨_, listAll_ok hselects hcount arrange limit, List.Perm.map _ ?_⟩
    exact pagesOf_perm (orderBefore_total hsv order) (orderBy_valid hsv order _) hties
      (fun k => hvalid k order _) hpages

/-! ## Two people of one age -/

/-- A server of numbers. -/
def numberServer : Server Nat where
  uuid n := n
  same m n := m == n
  text := natText
  store _ _ := none
  default _ := none
  equals _ s := (String.ofList s).toNat?.map fun m n => m == n
  ilike _ _ := false
  before
    | _, none => true
    | none, some _ => false
    | some m, some n => decide (m ≤ n)
  floatText := id

theorem numberServer_sorts : numberServer.Sorts := by
  refine ⟨fun a b => ?_, fun a b c hab hbc => ?_, fun x y hxy hyx => ?_⟩
  · cases a with
    | none => exact Or.inr (by cases b <;> rfl)
    | some m =>
      cases b with
      | none => exact Or.inl rfl
      | some n => exact (Nat.le_total m n).imp decide_eq_true decide_eq_true
  · cases c with
    | none => cases a <;> rfl
    | some n =>
      cases b with
      | none => cases hbc
      | some m =>
        cases a with
        | none => cases hab
        | some k => exact decide_eq_true (Nat.le_trans (of_decide_eq_true hab) (of_decide_eq_true hbc))
  · exact Nat.le_antisymm (of_decide_eq_true hxy) (of_decide_eq_true hyx)

def ada : Row Nat := ⟨1, [("age", 30), ("active", 1)]⟩

def bob : Row Nat := ⟨2, [("age", 30), ("active", 1)]⟩

/-- The query of pages by age. -/
def byAge : PageQuery := ⟨none, none, some "age".toList, [], none⟩

theorem pagesComplete_iff_people :
    PagesComplete numberServer (run step emptyProject peopleTable).tenant peopleRow.physical
        ((run step emptyProject peopleTable).catalog.columnsOf peopleRow) [ada, bob] 1 byAge
        ([ada, bob].filter fun _ => true) ↔
      TiesOnOnePage (orderBefore numberServer ("age", false)) (effectiveLimit 1)
        ([ada, bob].filter fun _ => true) :=
  pagesComplete_iff emptyProject peopleTable rfl rfl peopleRow (by decide) _ asBuilt_people numberServer
    numberServer_sorts [ada, bob] ⟨by decide, by decide⟩ 1 byAge (fun _ => true) ("age", false) rfl rfl

/-- Ties the other way round on the second page. -/
def turned (k : Nat) : Arrangement Nat := fun order rows =>
  if k = 1 ∧ order = ("age", false) ∧ rows = [ada, bob] then [bob, ada] else orderBy numberServer order rows

theorem turned_valid (k : Nat) : (turned k).Valid numberServer := by
  intro order rows
  unfold turned
  split_ifs with hturned
  · obtain ⟨-, rfl, rfl⟩ := hturned
    exact ⟨List.Perm.swap _ _ _, by decide⟩
  · exact orderBy_valid numberServer_sorts order rows

/-- Ada stands on both pages, and Bob on none. -/
theorem not_pagesComplete_of_ties :
    ¬ PagesComplete numberServer (run step emptyProject peopleTable).tenant peopleRow.physical
      ((run step emptyProject peopleTable).catalog.columnsOf peopleRow) [ada, bob] 1 byAge [ada, bob] := by
  intro hcomplete
  obtain ⟨results, hresults, hperm⟩ := hcomplete turned turned_valid
  have htwice : listAll turned numberServer (run step emptyProject peopleTable).tenant peopleRow.physical
      ((run step emptyProject peopleTable).catalog.columnsOf peopleRow) [ada, bob] 1 byAge =
        .ok (2, [[("id", some 1), ("age", some 30), ("active", some 1)],
          [("id", some 1), ("age", some 30), ("active", some 1)]]) := rfl
  rw [htwice] at hresults
  obtain rfl := (Prod.mk.inj (Except.ok.inj hresults)).2
  have hbob : [("id", some 2), ("age", some 30), ("active", some 1)] ∈ [ada, bob].map
      (rowDict numberServer.toValueType
        ((run step emptyProject peopleTable).catalog.columnsOf peopleRow)) := by decide
  exact absurd (hperm.mem_iff.mpr hbob) (by decide)

end Databases
