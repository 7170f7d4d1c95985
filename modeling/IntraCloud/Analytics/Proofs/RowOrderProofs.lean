import IntraCloud.Analytics.Proofs.ReportingProofs
import IntraCloud.Analytics.Reporting
import IntraCloud.Relational.Pairing

/-!
# When an operation does not depend on the order of rows

Each step of an operation that does not ask a query is taken first; what is left is a function of the lists that the
queries return, and these lists come in all orders.
-/

namespace Analytics

open Databases Python Relational Statistics

variable {ν K : Type} {E : Environment ν K} {src : Source ν (Double K)} {params : PyJson}

/-! ## Answers in other orders -/

/-- Every query returns all rows. -/
def AllRows (src : Source ν (Double K)) (q : Answers ν) : Prop := ∀ k, (q k).Perm src.rows

/-- The same whatever the order. -/
def Free {δ : Type} (src : Source ν (Double K)) (f : Answers ν → δ) : Prop :=
  ∀ q q', AllRows src q → AllRows src q' → f q = f q'

theorem orderFree_iff_free [Arithmetic K] (hcap : src.rows.length ≤ src.cap) {op : Operation ν K} :
    OrderFree E src params op ↔ Free src fun q => op E src q params := by
  have hall : ∀ q : Answers ν, (∀ k, Fetches src.cap src.rows (q k)) ↔ AllRows src q := fun q =>
    forall_congr' fun k => fetches_all_iff hcap
  constructor
  · intro h q q' hq hq'
    exact h q q' ((hall q).mpr hq) ((hall q').mpr hq')
  · intro h q q' hq hq'
    exact h q q' ((hall q).mp hq) ((hall q').mp hq')

section Free

variable {α β γ δ ε : Type}

theorem free_const (d : δ) : Free src fun _ => d := fun _ _ _ _ => rfl

/-- A step that does not ask a query. -/
theorem free_bind {x : Except ε α} {f : α → Answers ν → Except ε β} :
    Free src (fun q => x >>= fun a => f a q) ↔ ∀ a, x = .ok a → Free src (f a) := by
  constructor
  · rintro h a rfl q q' hq hq'
    exact h q q' hq hq'
  · intro h q q' hq hq'
    cases x with
    | error e => rfl
    | ok a => exact h a rfl q q' hq hq'

/-- Every order of what the rows have is that of some order of the rows. -/
theorem exists_rows_of_perm {ρ : Type} {f : ρ → Option β} {rows : List ρ} {items : List β}
    (h : items.Perm (rows.filterMap f)) : ∃ rows' : List ρ, rows'.Perm rows ∧ rows'.filterMap f = items := by
  induction items generalizing rows with
  | nil => exact ⟨rows, .refl _, h.nil_eq.symm⟩
  | cons item items ih =>
    obtain ⟨r, hr, hitem⟩ := List.mem_filterMap.mp (h.mem_iff.mp List.mem_cons_self)
    obtain ⟨rest, hrest⟩ := exists_perm_cons hr
    have hitems : (item :: items).Perm (item :: rest.filterMap f) := by
      rw [← List.filterMap_cons_some hitem]
      exact h.trans (hrest.filterMap f)
    obtain ⟨rest', hperm, hrows⟩ := ih hitems.cons_inv
    exact ⟨r :: rest', (hperm.cons r).trans hrest.symm, by rw [List.filterMap_cons_some hitem, hrows]⟩

theorem AllRows.filterMap {q : Answers ν} (h : AllRows src q) (f : Row ν → Option β) (k : Nat) :
    ((q k).filterMap f).Perm (src.rows.filterMap f) := (h k).filterMap f

/-- The function gives the same for all orders of the list. -/
def SameForAll (f : List β → δ) (items : List β) : Prop := ∀ l l', l.Perm items → l'.Perm items → f l = f l'

/-- What is computed from one query. -/
theorem free_one (f : Row ν → Option β) (g : List β → δ) (k : Nat) :
    Free src (fun q => g ((q k).filterMap f)) ↔ SameForAll g (src.rows.filterMap f) := by
  constructor
  · intro h l l' hl hl'
    obtain ⟨rows, hrows, rfl⟩ := exists_rows_of_perm hl
    obtain ⟨rows', hrows', rfl⟩ := exists_rows_of_perm hl'
    exact h (fun _ => rows) (fun _ => rows') (fun _ => hrows) fun _ => hrows'
  · intro h q q' hq hq'
    exact h _ _ (hq.filterMap f k) (hq'.filterMap f k)

/-- What is computed from two queries. -/
theorem free_two (f : Row ν → Option β) (f' : Row ν → Option γ) (g : List β → List γ → δ) :
    Free src (fun q => g ((q 0).filterMap f) ((q 1).filterMap f')) ↔
      ∀ l l' m m', l.Perm (src.rows.filterMap f) → l'.Perm (src.rows.filterMap f) →
        m.Perm (src.rows.filterMap f') → m'.Perm (src.rows.filterMap f') → g l m = g l' m' := by
  constructor
  · intro h l l' m m' hl hl' hm hm'
    obtain ⟨rows, hrows, rfl⟩ := exists_rows_of_perm hl
    obtain ⟨rows', hrows', rfl⟩ := exists_rows_of_perm hl'
    obtain ⟨others, hothers, rfl⟩ := exists_rows_of_perm hm
    obtain ⟨others', hothers', rfl⟩ := exists_rows_of_perm hm'
    have hall : ∀ {a b : List (Row ν)}, a.Perm src.rows → b.Perm src.rows →
        AllRows src fun k => if k = 0 then a else b := by
      intro a b ha hb k
      by_cases hk : k = 0
      · simp only [hk, if_true]
        exact ha
      · simp only [hk, if_false]
        exact hb
    exact h (fun k => if k = 0 then rows else others) (fun k => if k = 0 then rows' else others')
      (hall hrows hothers) (hall hrows' hothers')
  · intro h q q' hq hq'
    exact h _ _ _ _ (hq.filterMap f 0) (hq'.filterMap f 0) (hq.filterMap f' 1) (hq'.filterMap f' 1)

end Free

/-! ## Columns in other orders -/

section Columns

variable {fetched fetched' : List (Row ν)} {column : DBColumn}

theorem valuesOf_perm (h : fetched.Perm fetched') : (valuesOf src fetched column).Perm (valuesOf src fetched' column) :=
  h.map _

theorem numbersOf_eq : numbersOf src fetched column =
    fetched.filterMap fun r => (r.value src.valueType column.name).map src.float := by
  rw [numbersOf, valuesOf, List.filterMap_map, List.map_filterMap]
  rfl

theorem numbersOf_perm (h : fetched.Perm fetched') :
    (numbersOf src fetched column).Perm (numbersOf src fetched' column) :=
  ((valuesOf_perm h).filterMap _).map _

theorem firsts_eq : firsts (fetchColumns src.valueType src.cap src.rows fetched [column.name]).rows =
    valuesOf src fetched column := firsts_fetchColumns

theorem pairsOf_perm {rows rows' : List (List (Option ν))} (h : rows.Perm rows') :
    (pairsOf rows).Perm (pairsOf rows') := h.filterMap _

theorem rowsOf_perm (h : fetched.Perm fetched') (column' : DBColumn) :
    (rowsOf src fetched column column').Perm (rowsOf src fetched' column column') := h.map _

/-- `_numeric_series`, a step after the other. -/
theorem series_eq (name : PyJson) : series src fetched name =
    (columnOf src.columns name >>= fun column => orRaise (requireTypes column NUMERIC_TYPES) >>= fun _ =>
      .ok (numbersOf src fetched column, isTruncated src) : Except (Raised ν) (List (Double K) × Bool)) := by
  cases name with
  | str s =>
    simp only [series, columnOf, numericSeries]
    cases getColumn src.columns (String.ofList s) with
    | error e => rfl
    | ok column =>
      dsimp only
      show _ = (orRaise (requireTypes column NUMERIC_TYPES) >>= fun _ =>
        .ok (numbersOf src fetched column, isTruncated src))
      cases requireTypes column NUMERIC_TYPES with
      | error e => rfl
      | ok u =>
        have hvalues : (fetchColumns src.valueType src.cap src.rows fetched [column.name]).rows.filterMap
            (fun row => row.head?.join.map src.float) = numbersOf src fetched column := by
          rw [numbersOf_eq, fetchColumns, List.filterMap_map]
          rfl
        rw [← hvalues]
        rfl
  | _ => rfl

end Columns

/-! ## Operations that never depend on it -/

section Always

variable {fetched fetched' : List (Row ν)} {column : DBColumn}

theorem requireHashable_perm {values values' : List (Option ν)} (h : values.Perm values') :
    requireHashable E values = requireHashable E values' := by
  rw [requireHashable, requireHashable, h.all_eq]

theorem sameOption_iff (hsame : ∀ a b, E.same a b = true ↔ a = b) (a b : Option ν) :
    sameOption E.same a b = true ↔ a = b := by
  cases a with
  | none =>
    cases b with
    | none => simp [sameOption]
    | some b => simp [sameOption]
  | some a =>
    cases b with
    | none => simp [sameOption]
    | some b => simp [sameOption, hsame]

theorem sameTuple_iff (hsame : ∀ a b, E.same a b = true ↔ a = b) (a b : List (Option ν)) :
    sameTuple E.same a b = true ↔ a = b := by
  induction a generalizing b with
  | nil =>
    cases b with
    | nil => simp [sameTuple]
    | cons b bs => simp [sameTuple]
  | cons a as ih =>
    cases b with
    | nil => simp [sameTuple]
    | cons b bs => simp [sameTuple, sameOption_iff hsame, ih]

theorem free_opDistinctCount [Arithmetic K] (hsame : ∀ a b, E.same a b = true ↔ a = b) :
    Free src fun q => opDistinctCount E src q params := by
  simp only [opDistinctCount, free_bind, fetch_one, ok_bind, firsts_eq]
  intro name _ column _ q q' hq hq'
  have hvalues : (valuesOf src (q 0) column).Perm (valuesOf src (q' 0) column) :=
    valuesOf_perm ((hq 0).trans (hq' 0).symm)
  dsimp only
  rw [requireHashable_perm hvalues, (distinct_perm (sameOption_iff hsame) hvalues).length_eq]
  rfl

theorem free_opMissing [Arithmetic K] : Free src fun q => opMissing E src q params := by
  simp only [opMissing, free_bind, fetch_one, ok_bind, firsts_eq]
  intro name _ column _ q q' hq hq'
  have hrows := (hq 0).trans (hq' 0).symm
  have hvalues : (valuesOf src (q 0) column).Perm (valuesOf src (q' 0) column) := valuesOf_perm hrows
  have hlength : (fetchColumns src.valueType src.cap src.rows (q 0) [column.name]).rows.length =
      (fetchColumns src.valueType src.cap src.rows (q' 0) [column.name]).rows.length := (hrows.map _).length_eq
  dsimp only
  rw [hvalues.countP_eq, hlength]
  rfl

theorem free_opCount [Arithmetic K] : Free src fun q => opCount E src q params := by
  simp only [opCount, free_bind, fetch_one, ok_bind, firsts_eq]
  intro name _
  by_cases hname : truthy E name = true
  · simp only [hname, if_true, free_bind]
    intro column _ q q' hq hq'
    have hvalues : (valuesOf src (q 0) column).Perm (valuesOf src (q' 0) column) :=
      valuesOf_perm ((hq 0).trans (hq' 0).symm)
    dsimp only
    rw [hvalues.countP_eq]
    rfl
  · simp only [hname, Bool.false_eq_true, if_false]
    cases src.columns with
    | nil => exact free_const _
    | cons column columns => exact fun _ _ _ _ => rfl

theorem free_opDuplicateCount [Arithmetic K] (hsame : ∀ a b, E.same a b = true ↔ a = b) :
    Free src fun q => opDuplicateCount E src q params := by
  simp only [opDuplicateCount, free_bind, fetch]
  intro names _ columns _
  by_cases htargets : MAX_TARGETS < (columns.map (·.name)).length
  · simp only [htargets, if_true]
    exact free_const _
  · simp only [htargets, if_false, ok_bind]
    intro q q' hq hq'
    have hrows : (fetchColumns src.valueType src.cap src.rows (q 0) (columns.map (·.name))).rows.Perm
        (fetchColumns src.valueType src.cap src.rows (q' 0) (columns.map (·.name))).rows :=
      ((hq 0).trans (hq' 0).symm).map _
    dsimp only
    rw [requireHashable_perm hrows.flatten, hrows.length_eq,
      (distinct_perm (sameTuple_iff hsame) hrows).length_eq]
    rfl

/-- The other orders of numbers are numbers. -/
theorem exists_map_of_perm {values : List (Double K)} {zs : List K} (h : values.Perm (zs.map .finite)) :
    ∃ zs' : List K, values = zs'.map .finite ∧ zs'.Perm zs := by
  have hinjective : Function.Injective (Double.finite : K → Double K) := fun _ _ => Double.finite.inj
  obtain ⟨zs', rfl⟩ := exists_of_allDefined fun x hx => allDefined_map zs x (h.mem_iff.mp hx)
  exact ⟨zs', rfl, (List.map_perm_map_iff hinjective).mp h⟩

theorem numbers_exact (hexact : Exact E src) {column : DBColumn} {name : PyJson}
    (hcolumn : columnOf src.columns name = (.ok column : Except (Raised ν) DBColumn))
    (hnumeric : column.dataType ∈ NUMERIC_TYPES) : ∃ zs : List K, numbersOf src src.rows column = zs.map .finite := by
  refine exists_of_allDefined fun x hx => ?_
  rw [numbersOf_eq] at hx
  obtain ⟨r, hr, hvalue⟩ := List.mem_filterMap.mp hx
  obtain ⟨v, hv, rfl⟩ := Option.map_eq_some_iff.mp hvalue
  exact hexact.numbers column (mem_columns_of_columnOf hcolumn) hnumeric r hr v hv

theorem NamesNumeric.numbers_exact {key : String} (h : NamesNumeric src params key column) (hexact : Exact E src) :
    ∃ zs : List K, numbersOf src src.rows column = zs.map .finite := by
  obtain ⟨name, ⟨-, hcolumn⟩, hnumeric⟩ := h
  exact Analytics.numbers_exact hexact hcolumn hnumeric

/-- What two queries return of a numeric column are numbers, in two orders. -/
theorem numbers_fetched (hexact : Exact E src) {name : PyJson}
    (hcolumn : columnOf src.columns name = (.ok column : Except (Raised ν) DBColumn))
    (hnumeric : column.dataType ∈ NUMERIC_TYPES) (hrows : fetched.Perm src.rows) (hrows' : fetched'.Perm src.rows) :
    ∃ zs zs' : List K, numbersOf src fetched column = zs.map .finite ∧
      numbersOf src fetched' column = zs'.map .finite ∧ zs.Perm zs' := by
  obtain ⟨base, hbase⟩ := numbers_exact hexact hcolumn hnumeric
  have hnumbers : (numbersOf src fetched column).Perm (numbersOf src src.rows column) := numbersOf_perm hrows
  have hnumbers' : (numbersOf src fetched' column).Perm (numbersOf src src.rows column) := numbersOf_perm hrows'
  rw [hbase] at hnumbers hnumbers'
  obtain ⟨zs, hzs, hperm⟩ := exists_map_of_perm hnumbers
  obtain ⟨zs', hzs', hperm'⟩ := exists_map_of_perm hnumbers'
  exact ⟨zs, zs', hzs, hzs', hperm.trans hperm'.symm⟩

theorem free_descriptiveNumeric (hexact : Exact E src) {opName label : String} {least : Nat}
    {reducer : Environment ν K → List (Double K) → Double K}
    (hreducer : ∀ zs zs' : List K, least ≤ zs.length → zs.Perm zs' →
      reducer E (zs.map .finite) = reducer E (zs'.map .finite)) :
    Free src fun q => descriptiveNumeric opName label least reducer E src q params := by
  simp only [descriptiveNumeric, free_bind, series_eq, bind_assoc, ok_bind, orRaise_eq_ok, requireTypes_eq_ok]
  intro name _ column hcolumn _ hnumeric q q' hq hq'
  obtain ⟨zs, zs', hzs, hzs', hperm⟩ := numbers_fetched hexact hcolumn hnumeric (hq 0) (hq' 0)
  dsimp only
  rw [hzs, hzs', List.length_map, List.length_map, hperm.length_eq]
  by_cases hfew : zs'.length < least
  · rw [requireMinN, if_pos hfew]
    rfl
  · rw [hreducer zs zs' (hperm.length_eq ▸ Nat.le_of_not_lt hfew) hperm]

/-- What each of the items gives. -/
theorem mem_of_mapM_eq_some {α β : Type} {f : α → Option β} {items : List α} {results : List β}
    (h : items.mapM f = some results) :
    (∀ a ∈ items, ∃ b ∈ results, f a = some b) ∧ ∀ b ∈ results, ∃ a ∈ items, f a = some b := by
  induction items generalizing results with
  | nil =>
    obtain rfl := Option.some.inj h
    exact ⟨List.forall_mem_nil _, List.forall_mem_nil _⟩
  | cons a items ih =>
    rw [List.mapM_cons] at h
    obtain ⟨b, hb, hrest⟩ := Option.bind_eq_some_iff.mp h
    obtain ⟨results', hresults, heq⟩ := Option.bind_eq_some_iff.mp hrest
    obtain rfl := Option.some.inj heq
    obtain ⟨hitems, hall⟩ := ih hresults
    constructor
    · refine List.forall_mem_cons.mpr ⟨⟨b, List.mem_cons_self, hb⟩, fun a' ha' => ?_⟩
      obtain ⟨b', hb', hab'⟩ := hitems a' ha'
      exact ⟨b', List.mem_cons_of_mem _ hb', hab'⟩
    · refine List.forall_mem_cons.mpr ⟨⟨a, List.mem_cons_self, hb⟩, fun b' hb' => ?_⟩
      obtain ⟨a', ha', hab'⟩ := hall b' hb'
      exact ⟨a', List.mem_cons_of_mem _ ha', hab'⟩

section Documented

variable [Arithmetic K] {F : Functions K} (hdocumented : Documented E.toLibraries F)

include hdocumented

theorem percentile_perm_eq {zs zs' : List K} (hzs : zs ≠ []) (hperm : zs.Perm zs') {p : K} (hp : 0 ≤ p)
    (hp' : p ≤ 100) : E.percentile (zs.map .finite) p = E.percentile (zs'.map .finite) p := by
  have hzs' : zs' ≠ [] := fun hnil => hzs (by rw [hnil] at hperm; exact hperm.eq_nil)
  rw [hdocumented.percentile zs p hzs hp hp', hdocumented.percentile zs' p hzs' hp hp', percentile_perm hperm]

omit hdocumented in
theorem percentile?_bounds {item : PyJson} {p : List Char × K} (h : percentile? E item = some p) :
    0 ≤ p.2 ∧ p.2 ≤ 100 := by
  obtain ⟨x, -, hx⟩ := Option.bind_eq_some_iff.mp h
  split at hx
  next hbounds =>
    rw [← Option.some.inj hx]
    exact ⟨hbounds.1, by exact_mod_cast hbounds.2⟩
  next => cases hx

omit hdocumented in
theorem mapM_percentile?_bounds {items : List PyJson} {ps : List (List Char × K)}
    (h : items.mapM (percentile? E) = some ps) : ∀ p ∈ ps, 0 ≤ p.2 ∧ p.2 ≤ 100 := by
  intro p hp
  obtain ⟨item, -, hitem⟩ := (mem_of_mapM_eq_some h).2 p hp
  exact percentile?_bounds hitem

theorem free_opPercentiles (hexact : Exact E src) : Free src fun q => opPercentiles E src q params := by
  simp only [opPercentiles, free_bind, series_eq, bind_assoc, ok_bind, orRaise_eq_ok, requireTypes_eq_ok]
  intro name _ column hcolumn _ hnumeric q q' hq hq'
  obtain ⟨zs, zs', hzs, hzs', hperm⟩ := numbers_fetched hexact hcolumn hnumeric (hq 0) (hq' 0)
  dsimp only
  rw [hzs, hzs', List.length_map, List.length_map, hperm.length_eq]
  by_cases hfew : zs'.length < 1
  · rw [requireMinN, if_pos hfew]
    rfl
  · have hne : zs ≠ [] := List.ne_nil_of_length_pos (by have := hperm.length_eq; omega)
    refine congrArg (orRaise (requireMinN zs'.length 1 "sample") >>= ·) (funext fun _ => ?_)
    refine congrArg (getParam params "percentiles" _ >>= ·) (funext fun percentiles => ?_)
    cases percentiles.iterate with
    | none => rfl
    | some items =>
      dsimp only
      cases hps : items.mapM (percentile? E) with
      | none => rfl
      | some ps =>
        have hvalues : ps.map (fun p => (p.1, E.percentile (zs.map .finite) p.2)) =
            ps.map fun p => (p.1, E.percentile (zs'.map .finite) p.2) := by
          refine List.map_congr_left fun p hp => ?_
          obtain ⟨hlow, hhigh⟩ := mapM_percentile?_bounds hps p hp
          rw [percentile_perm_eq hdocumented hne hperm hlow hhigh]
        dsimp only
        rw [hvalues]

end Documented

theorem sortedValues_perm [Arithmetic K] (hexact : Exact E src) {values values' : List ν} (h : values.Perm values') :
    sortedValues E values = sortedValues E values' := by
  refine List.Perm.eq_of_pairwise (fun a b _ _ => hexact.antisymm a b)
    (List.pairwise_mergeSort hexact.trans hexact.total _) (List.pairwise_mergeSort hexact.trans hexact.total _) ?_
  exact (List.mergeSort_perm _ _).trans ((distinct_perm hexact.same h).trans (List.mergeSort_perm _ _).symm)

theorem tableCounts_perm [Arithmetic K] (hexact : Exact E src) {pairs pairs' : List (ν × ν)} (h : pairs.Perm pairs') :
    tableCounts E pairs = tableCounts E pairs' := by
  rw [tableCounts, tableCounts, sortedValues_perm hexact (h.map (·.1)), sortedValues_perm hexact (h.map (·.2))]
  simp only [h.countP_eq]

theorem free_opChiSquare [Arithmetic K] (hexact : Exact E src) :
    Free src fun q => opChiSquare E src q params := by
  simp only [opChiSquare, free_bind, fetch_two, ok_bind, rows_fetchColumns]
  intro nameA _ colA _ nameB _ colB _ _ _ _ _ q q' hq hq'
  have hpairs : (pairsOf (rowsOf src (q 0) colA colB)).Perm (pairsOf (rowsOf src (q' 0) colA colB)) :=
    pairsOf_perm (rowsOf_perm ((hq 0).trans (hq' 0).symm) colB)
  dsimp only
  rw [hpairs.length_eq, tableCounts_perm hexact hpairs]
  rfl

end Always

/-! ## Frequencies -/

section Frequencies

variable {values : List ν} {n : Nat}

theorem countP_counter (hsame : ∀ a b, E.same a b = true ↔ a = b) (m : Nat) :
    ((counter E.same values).countP fun c => decide (m < c.2)) =
      (distinct E.same values).countP fun v => decide (m < occurrences E values v) := by
  rw [counter_eq hsame, List.countP_map]
  rfl

theorem noTies_counter_iff (hsame : ∀ a b, E.same a b = true ↔ a = b) :
    NoTies n (counter E.same values) ↔ RankedApart E n values := by
  have hcounter := counter_eq hsame values
  constructor
  · intro h a ha b hb hcount hne
    have hmem : ∀ {k}, k ∈ values → (k, occurrences E values k) ∈ counter E.same values := by
      intro k hk
      rw [hcounter]
      exact List.mem_map_of_mem ((mem_distinct hsame).mpr hk)
    rw [← countP_counter hsame]
    exact h _ (hmem ha) _ (hmem hb) hcount fun heq => hne (Prod.mk.inj heq).1
  · intro h a ha b hb hcount hne
    rw [hcounter] at ha hb
    obtain ⟨k, hk, rfl⟩ := List.mem_map.mp ha
    obtain ⟨l, hl, rfl⟩ := List.mem_map.mp hb
    have hkl : k ≠ l := by
      rintro rfl
      exact hne rfl
    rw [countP_counter hsame]
    exact h k ((mem_distinct hsame).mp hk) l ((mem_distinct hsame).mp hl) hcount hkl

/-- A value that comes first is listed before those that are equally common. -/
theorem getElem?_mostCommon_first (hsame : ∀ a b, E.same a b = true ↔ a = b) {a : ν} {rest : List ν}
    (hperm : (a :: rest).Perm values)
    (hn : ((distinct E.same values).countP fun v => decide (occurrences E values a < occurrences E values v)) < n) :
    (mostCommon n (counter E.same (a :: rest)))[(distinct E.same values).countP fun v =>
      decide (occurrences E values a < occurrences E values v)]? = some (a, occurrences E values a) := by
  obtain ⟨keys, hkeys⟩ := distinct_cons E.same a rest
  have hoccurrences : occurrences E (a :: rest) = occurrences E values := funext fun v => hperm.countP_eq _
  have hcounter : counter E.same (a :: rest) =
      (a, occurrences E values a) :: keys.map fun k => (k, occurrences E values k) := by
    rw [counter_eq hsame, hkeys, List.map_cons, ← hoccurrences]
    rfl
  -- The value itself is not more common than itself.
  have hcount : ((keys.map fun k => (k, occurrences E values k)).countP fun c =>
      decide (occurrences E values a < c.2)) =
      (distinct E.same values).countP fun v => decide (occurrences E values a < occurrences E values v) := by
    rw [List.countP_map, ← (distinct_perm hsame hperm).countP_eq, hkeys, List.countP_cons]
    simp only [lt_irrefl, decide_false, Bool.false_eq_true, if_false, Nat.add_zero]
    rfl
  rw [hcounter, ← hcount]
  refine getElem?_mostCommon_cons (a, occurrences E values a) _ ?_
  rw [hcount]
  exact hn

theorem mostCommon_sameForAll_iff (hsame : ∀ a b, E.same a b = true ↔ a = b) :
    SameForAll (fun l => mostCommon n (counter E.same l)) values ↔ RankedApart E n values := by
  constructor
  · intro h a ha b hb hcount hne
    by_contra hlt
    have hlt := Nat.lt_of_not_le hlt
    obtain ⟨rest, hrest⟩ := exists_perm_cons ha
    obtain ⟨rest', hrest'⟩ := exists_perm_cons hb
    have hfirst := getElem?_mostCommon_first hsame hrest.symm hlt
    rw [hcount] at hlt
    have hfirst' := getElem?_mostCommon_first hsame hrest'.symm hlt
    have hsames : mostCommon n (counter E.same (a :: rest)) = mostCommon n (counter E.same (b :: rest')) :=
      h _ _ hrest.symm hrest'.symm
    rw [hsames, hcount] at hfirst
    exact hne (Prod.mk.inj (Option.some.inj (hfirst.symm.trans hfirst'))).1
  · intro h l l' hl hl'
    have hties := (noTies_counter_iff hsame).mpr h
    have hlist : ∀ {l}, l.Perm values → mostCommon n (counter E.same values) = mostCommon n (counter E.same l) :=
      fun hl => mostCommon_perm (counter_perm hsame hl.symm) hties
    exact (hlist hl).symm.trans (hlist hl')

theorem presentOf_eq {column : DBColumn} {fetched : List (Row ν)} : (valuesOf src fetched column).filterMap id =
    fetched.filterMap fun r => r.value src.valueType column.name := by
  rw [valuesOf, List.filterMap_map]
  rfl

/-- The result for values in this order. -/
def frequencies (E : Environment ν K) (src : Source ν (Double K)) (column : DBColumn) (n : Nat) (values : List ν) :
    Result ν K :=
  [("operation", .text "frequency_distribution"), ("column", .text column.name),
    ("distribution", .distribution (mostCommon n (counter E.same values))),
    ("distinct_values_total", .count (counter E.same values).length), ("truncated", .flag (isTruncated src))]

theorem frequencies_sameForAll_iff (hsame : ∀ a b, E.same a b = true ↔ a = b) (column : DBColumn) :
    SameForAll (fun l => (pure (frequencies E src column n l) : Except (Raised ν) (Result ν K))) values ↔
      RankedApart E n values := by
  rw [← mostCommon_sameForAll_iff hsame]
  refine forall₂_congr fun l l' => forall₂_congr fun hl hl' => ?_
  have hlength := (counter_perm hsame (hl.trans hl'.symm)).length_eq
  constructor
  · intro h
    have hresult : frequencies E src column n l' = frequencies E src column n l := pure_eq_ok.mp h
    have hlist : mostCommon n (counter E.same l') = mostCommon n (counter E.same l) ∧
        Datum.count (counter E.same l').length = (Datum.count (counter E.same l).length : Datum ν K) := by
      simpa [frequencies] using hresult
    exact hlist.1.symm
  · intro h
    have hlist : mostCommon n (counter E.same l) = mostCommon n (counter E.same l') := h
    dsimp only
    rw [frequencies, frequencies, hlist, hlength]

theorem free_frequency_iff [Arithmetic K] (hsame : ∀ a b, E.same a b = true ↔ a = b) :
    Free src (fun q => opFrequencyDistribution E src q params) ↔ ListedApart E src params := by
  have hcore : ∀ (column : DBColumn) (n : Nat), Free src (fun q => (pure
      (frequencies E src column n ((valuesOf src (q 0) column).filterMap id)) : Except (Raised ν) (Result ν K))) ↔
      RankedApart E n (presentOf src column) := by
    intro column n
    have hbase : presentOf src column = src.rows.filterMap fun r => r.value src.valueType column.name := presentOf_eq
    simp only [presentOf_eq]
    rw [hbase, ← frequencies_sameForAll_iff hsame column]
    exact free_one _ (fun l => (pure (frequencies E src column n l) : Except (Raised ν) (Result ν K))) 0
  simp only [opFrequencyDistribution, free_bind, fetch_one, ok_bind, firsts_eq, orRaise_eq_ok, requireTypes_eq_ok]
  constructor
  · rintro h name column topN ⟨hname, hcolumn⟩ htypes ⟨value, hvalue, htopN⟩
    exact (hcore column _).mp (h name hname column hcolumn () htypes value hvalue topN htopN)
  · intro h name hname column hcolumn _ htypes value hvalue topN htopN
    exact (hcore column _).mpr (h name column topN ⟨hname, hcolumn⟩ htypes ⟨value, hvalue, htopN⟩)

end Frequencies

/-! ## Outliers -/

section Outliers

variable [Arithmetic K] {F : Functions K} (hdocumented : Documented E.toLibraries F) {zs zs' : List K}

/-- A number is outside the fences. -/
def outside (xs : List K) (x : K) : Bool := decide (x < (fences xs).1) || decide ((fences xs).2 < x)

include hdocumented

theorem bounds_map (hzs : zs ≠ []) :
    bounds E (zs.map .finite) = (.finite (fences zs).1, .finite (fences zs).2) := by
  have hq1 := hdocumented.percentile zs 25 hzs (by norm_num) (by norm_num)
  have hq3 := hdocumented.percentile zs 75 hzs (by norm_num) (by norm_num)
  simp only [bounds, Nat.cast_ofNat]
  rw [hq1, hq3, fences]
  simp only [Double.sub, Double.neg, Double.add, Double.scale, ← sub_eq_add_neg]

theorem outliers_map (zs : List K) : outliers E (zs.map .finite) = (zs.filter (outside zs)).map .finite := by
  by_cases hzs : zs = []
  · rw [hzs]
    rfl
  · rw [outliers, bounds_map hdocumented hzs, List.filter_map]
    rfl

theorem outliers_perm (hperm : zs.Perm zs') :
    (outliers E (zs.map .finite)).Perm (outliers E (zs'.map .finite)) := by
  have houtside : outside zs = outside zs' := by
    funext x
    rw [outside, outside, fences_perm hperm]
  rw [outliers_map hdocumented, outliers_map hdocumented, houtside]
  exact (hperm.filter _).map _

/-- Any outlier comes first in some order. -/
theorem exists_outliers_cons {x : Double K} (hx : x ∈ outliers E (zs.map .finite)) :
    ∃ l rest, l.Perm (zs.map .finite) ∧ outliers E l = x :: rest := by
  rw [outliers_map hdocumented] at hx
  obtain ⟨z, hz, rfl⟩ := List.mem_map.mp hx
  obtain ⟨hmem, hout⟩ := List.mem_filter.mp hz
  obtain ⟨rest, hrest⟩ := exists_perm_cons hmem
  have houtside : outside (z :: rest) z = true := by
    rw [outside, fences_perm hrest.symm]
    exact hout
  refine ⟨(z :: rest).map .finite, (rest.filter (outside (z :: rest))).map .finite, hrest.symm.map _, ?_⟩
  rw [outliers_map hdocumented, List.filter_cons_of_pos houtside, List.map_cons]

omit hdocumented in
/-- What `op_outlier_detection` does with the values. -/
def detectOutliers (E : Environment ν K) (src : Source ν (Double K)) (name : PyJson) (values : List (Double K)) :
    Except (Raised ν) (Result ν K) := do
  orRaise (requireMinN values.length 4 "column")
  return [("operation", .text "outlier_detection"), ("column", .text (nameOf name)),
    ("method", .text "IQR (1.5x, Tukey's fences)"),
    ("lower_bound", .number (bounds E values).1), ("upper_bound", .number (bounds E values).2),
    ("outlier_count", .count (outliers E values).length), ("outlier_sample", .numbers ((outliers E values).take 50)),
    ("sample_size", .count values.length), ("truncated", .flag (isTruncated src)),
    ("interpretation_note", .text ("Outliers by this rule are not necessarily errors — verify against domain " ++
      "knowledge before removing or correcting any of them."))]

theorem detectOutliers_sameForAll_iff (name : PyJson) (zs : List K) :
    SameForAll (detectOutliers E src name) (zs.map .finite) ↔
      (4 ≤ (zs.map (Double.finite : K → Double K)).length → AllEqual (outliers E (zs.map .finite))) := by
  constructor
  · intro h hlength x hx y hy
    obtain ⟨l, rest, hl, hlx⟩ := exists_outliers_cons hdocumented hx
    obtain ⟨l', rest', hl', hly⟩ := exists_outliers_cons hdocumented hy
    have hresult := h l l' hl hl'
    have hfour : ¬ l.length < 4 := by
      rw [hl.length_eq]
      omega
    have hfour' : ¬ l'.length < 4 := by
      rw [hl'.length_eq]
      omega
    simp only [detectOutliers, requireMinN, if_neg hfour, if_neg hfour', orRaise, ok_bind, hlx, hly] at hresult
    have hlists := pure_eq_ok.mp hresult
    simp only [List.take_succ_cons, List.cons.injEq, Prod.mk.injEq, Datum.numbers.injEq] at hlists
    tauto
  · intro h l l' hl hl'
    obtain ⟨zs₁, rfl, hzs₁⟩ := exists_map_of_perm hl
    obtain ⟨zs₂, rfl, hzs₂⟩ := exists_map_of_perm hl'
    have hperm := hzs₁.trans hzs₂.symm
    by_cases hfour : zs₂.length < 4
    · rw [detectOutliers, detectOutliers, List.length_map, List.length_map, hperm.length_eq, requireMinN, if_pos hfour]
      rfl
    · have hne : zs₂ ≠ [] := List.ne_nil_of_length_pos (by omega)
      have hne' : zs₁ ≠ [] := fun hnil => hne (by rw [hnil] at hperm; exact hperm.nil_eq.symm)
      have hall : AllEqual (outliers E (zs₁.map .finite)) := by
        refine allEqual_perm (outliers_perm hdocumented hzs₁.symm) (h ?_)
        rw [List.length_map, ← hzs₂.length_eq]
        omega
      have houtliers : outliers E (zs₁.map .finite) = outliers E (zs₂.map .finite) :=
        eq_of_allEqual (outliers_perm hdocumented hperm) hall
      rw [detectOutliers, detectOutliers, List.length_map, List.length_map, hperm.length_eq, houtliers,
        bounds_map hdocumented hne, bounds_map hdocumented hne', fences_perm hperm]

theorem free_outliers_iff (hexact : Exact E src) :
    Free src (fun q => opOutlierDetection E src q params) ↔ OutliersAlike E src params := by
  have hcore : ∀ (name : PyJson) (column : DBColumn), NamesNumeric src params "column" column →
      (Free src (fun q => detectOutliers E src name (numbersOf src (q 0) column)) ↔
        (4 ≤ (numbersOf src src.rows column).length → AllEqual (outliers E (numbersOf src src.rows column)))) := by
    intro name column hcolumn
    obtain ⟨zs, hzs⟩ := hcolumn.numbers_exact hexact
    rw [hzs, ← detectOutliers_sameForAll_iff hdocumented name zs, ← hzs]
    simp only [numbersOf_eq]
    exact free_one _ (detectOutliers E src name) 0
  simp only [opOutlierDetection, free_bind, series_eq, bind_assoc, ok_bind, orRaise_eq_ok, requireTypes_eq_ok]
  constructor
  · rintro h column ⟨name, ⟨hname, hcolumn⟩, hnumeric⟩
    exact (hcore name column ⟨name, ⟨hname, hcolumn⟩, hnumeric⟩).mp (h name hname column hcolumn () hnumeric)
  · intro h name hname column hcolumn _ hnumeric
    exact (hcore name column ⟨name, ⟨hname, hcolumn⟩, hnumeric⟩).mpr
      (h column ⟨name, ⟨hname, hcolumn⟩, hnumeric⟩)

end Outliers

/-! ## Two columns -/

section Pairs

variable [Arithmetic K] {op : PairedOperation (Double K)} {nameX nameY : String}

/-- What a paired operation does with the numbers of the columns. -/
def runOn (op : PairedOperation (Double K)) (nameX nameY : String) (truncated : Bool) (xs ys : List (Double K)) :
    Except OperationError (List (String × Field (Double K))) :=
  match requireMinN (min xs.length ys.length) 3 "paired sample" with
  | .error e => .error e
  | .ok () =>
    match op.statistic (xs.take (min xs.length ys.length)) (ys.take (min xs.length ys.length)) with
    | none => .error .valueError
    | some numbers =>
      .ok (members op nameX nameY numbers (xs.take (min xs.length ys.length)).length truncated)

omit [Arithmetic K] in
theorem run_eq {columnX columnY : DBColumn} (hX : getColumn src.columns nameX = .ok columnX)
    (hnumericX : columnX.dataType ∈ NUMERIC_TYPES) (hY : getColumn src.columns nameY = .ok columnY)
    (hnumericY : columnY.dataType ∈ NUMERIC_TYPES) (fetchedX fetchedY : List (Row ν)) :
    op.run src fetchedX fetchedY nameX nameY = runOn op nameX nameY (isTruncated src || isTruncated src)
      (numbersOf src fetchedX columnX) (numbersOf src fetchedY columnY) := by
  unfold PairedOperation.run pairedSample runOn
  rw [numericSeries_eq hX hnumericX, numericSeries_eq hY hnumericY]
  dsimp only
  cases requireMinN (min (numbersOf src fetchedX columnX).length (numbersOf src fetchedY columnY).length) 3
      "paired sample" with
  | error e => rfl
  | ok u =>
    dsimp only
    cases op.statistic ((numbersOf src fetchedX columnX).take
        (min (numbersOf src fetchedX columnX).length (numbersOf src fetchedY columnY).length))
      ((numbersOf src fetchedY columnY).take
        (min (numbersOf src fetchedX columnX).length (numbersOf src fetchedY columnY).length)) with
    | none => rfl
    | some numbers => rfl

/-- The result of an operation on two columns, from what the operation returns. -/
def pairedResult (x : Except OperationError (List (String × Field (Double K)))) :
    Except (Raised ν) (Result ν K) := do
  let result ← orRaise x
  return result.map fun f => (f.1, .field f.2)

omit [Arithmetic K] in
theorem pairedResult_inj {x y : Except OperationError (List (String × Field (Double K)))} :
    (pairedResult x : Except (Raised ν) (Result ν K)) = pairedResult y ↔ x = y := by
  refine ⟨fun h => ?_, fun h => by rw [h]⟩
  cases x with
  | error e =>
    cases y with
    | error e' => exact congrArg Except.error (Raised.invalid.inj (Except.error.inj h))
    | ok b => cases h
  | ok a =>
    cases y with
    | error e' => cases h
    | ok b =>
      have hmap : (a.map fun f => (f.1, (Datum.field f.2 : Datum ν K))) = b.map fun f => (f.1, .field f.2) :=
        Except.ok.inj h
      have hinjective : Function.Injective fun f : String × Field (Double K) =>
          (f.1, (Datum.field f.2 : Datum ν K)) := by
        intro f f' heq
        obtain ⟨hname, hvalue⟩ := Prod.mk.inj heq
        exact Prod.ext hname (Datum.field.inj hvalue)
      rw [List.map_injective_iff.mpr hinjective hmap]

omit [Arithmetic K] in
theorem members_inj {numbers numbers' : List (String × Double K)} {n : Nat} {truncated : Bool}
    (h : members op nameX nameY numbers n truncated = members op nameX nameY numbers' n truncated) :
    numbers = numbers' := by
  have hmiddle := List.append_cancel_left (List.append_cancel_right h)
  have hinjective : Function.Injective fun number : String × Double K => (number.1, Field.number number.2) := by
    intro number number' heq
    obtain ⟨hname, hvalue⟩ := Prod.mk.inj heq
    exact Prod.ext hname (Field.number.inj hvalue)
  exact List.map_injective_iff.mpr hinjective hmiddle

omit [Arithmetic K] in
/-- The result says what the statistic is. -/
theorem runOn_inj {truncated : Bool} {xs ys xs' ys' : List (Double K)} (hx : xs.length = xs'.length)
    (hy : ys.length = ys'.length) : runOn op nameX nameY truncated xs ys = runOn op nameX nameY truncated xs' ys' ↔
      (3 ≤ min xs'.length ys'.length →
        op.statistic (xs.take (min xs'.length ys'.length)) (ys.take (min xs'.length ys'.length)) =
          op.statistic (xs'.take (min xs'.length ys'.length)) (ys'.take (min xs'.length ys'.length))) := by
  unfold runOn
  rw [hx, hy]
  by_cases hfew : min xs'.length ys'.length < 3
  · simp only [requireMinN, if_pos hfew, true_iff]
    omega
  · have hlength : (xs.take (min xs'.length ys'.length)).length = (xs'.take (min xs'.length ys'.length)).length := by
      rw [List.length_take, List.length_take, hx]
    simp only [requireMinN, if_neg hfew, Nat.le_of_not_lt hfew, true_implies, hlength]
    constructor
    · intro h
      cases hstatistic : op.statistic (xs.take (min xs'.length ys'.length)) (ys.take (min xs'.length ys'.length)) with
      | none =>
        cases hstatistic' : op.statistic (xs'.take (min xs'.length ys'.length))
            (ys'.take (min xs'.length ys'.length)) with
        | none => rfl
        | some numbers =>
          rw [hstatistic, hstatistic'] at h
          cases h
      | some numbers =>
        cases hstatistic' : op.statistic (xs'.take (min xs'.length ys'.length))
            (ys'.take (min xs'.length ys'.length)) with
        | none =>
          rw [hstatistic, hstatistic'] at h
          cases h
        | some numbers' =>
          rw [hstatistic, hstatistic'] at h
          rw [members_inj (Except.ok.inj h)]
    · intro h
      rw [h]

/-- A statistic of the starts of two lists, as long as both are, is the same for all orders of them. -/
def StatisticFixed {δ : Type} (statistic : List K → List K → δ) (xs ys : List K) : Prop :=
  ∀ l l' m m' : List K, l.Perm xs → l'.Perm xs → m.Perm ys → m'.Perm ys →
    statistic (l.take (min xs.length ys.length)) (m.take (min xs.length ys.length)) =
      statistic (l'.take (min xs.length ys.length)) (m'.take (min xs.length ys.length))

omit [Arithmetic K] in
/-- The results of numbers in all orders. -/
theorem pairedResult_iff {statistic : List K → List K → Option (List (String × Double K))} {truncated : Bool}
    (hstatistic : ∀ xs ys : List K, xs.length = ys.length → 3 ≤ xs.length →
      op.statistic (xs.map .finite) (ys.map .finite) = statistic xs ys)
    (nameX nameY : String) (xs ys : List K) :
    (∀ l l' m m', l.Perm (xs.map .finite) → l'.Perm (xs.map .finite) → m.Perm (ys.map .finite) →
      m'.Perm (ys.map .finite) → (pairedResult (runOn op nameX nameY truncated l m) : Except (Raised ν) (Result ν K)) =
        pairedResult (runOn op nameX nameY truncated l' m')) ↔
      (3 ≤ min xs.length ys.length → StatisticFixed statistic xs ys) := by
  have hstart : ∀ {l m : List K}, l.Perm xs → m.Perm ys → 3 ≤ min xs.length ys.length →
      op.statistic ((l.take (min xs.length ys.length)).map .finite) ((m.take (min xs.length ys.length)).map .finite) =
        statistic (l.take (min xs.length ys.length)) (m.take (min xs.length ys.length)) := by
    intro l m hl hm hthree
    have hlength : (l.take (min xs.length ys.length)).length = min xs.length ys.length := by
      rw [List.length_take, hl.length_eq]
      omega
    have hlength' : (m.take (min xs.length ys.length)).length = min xs.length ys.length := by
      rw [List.length_take, hm.length_eq]
      omega
    exact hstatistic _ _ (hlength.trans hlength'.symm) (hlength.symm ▸ hthree)
  constructor
  · intro h hthree l l' m m' hl hl' hm hm'
    have hresult := h _ _ _ _ (hl.map Double.finite) (hl'.map Double.finite) (hm.map Double.finite)
      (hm'.map Double.finite)
    rw [pairedResult_inj, runOn_inj (by simp [hl.length_eq, hl'.length_eq]) (by simp [hm.length_eq, hm'.length_eq])]
      at hresult
    simp only [List.length_map, hl'.length_eq, hm'.length_eq, ← List.map_take] at hresult
    rw [← hstart hl hm hthree, ← hstart hl' hm' hthree]
    exact hresult hthree
  · intro h l l' m m' hl hl' hm hm'
    obtain ⟨a, rfl, ha⟩ := exists_map_of_perm hl
    obtain ⟨a', rfl, ha'⟩ := exists_map_of_perm hl'
    obtain ⟨b, rfl, hb⟩ := exists_map_of_perm hm
    obtain ⟨b', rfl, hb'⟩ := exists_map_of_perm hm'
    rw [pairedResult_inj, runOn_inj (by simp [ha.length_eq, ha'.length_eq]) (by simp [hb.length_eq, hb'.length_eq])]
    simp only [List.length_map, ha'.length_eq, hb'.length_eq, ← List.map_take]
    intro hthree
    rw [hstart ha hb hthree, hstart ha' hb' hthree]
    exact h hthree a a' b b' ha ha' hb hb'

/-- A paired operation, by its statistic of numbers. -/
theorem free_paired_iff (hexact : Exact E src) {op : ScipyStats (Double K) → PairedOperation (Double K)}
    {statistic : List K → List K → Option (List (String × Double K))}
    (hstatistic : ∀ xs ys : List K, xs.length = ys.length → 3 ≤ xs.length →
      (op (scipyStats E)).statistic (xs.map .finite) (ys.map .finite) = statistic xs ys) :
    Free src (fun q => paired op E src q params) ↔
      ∀ columnX columnY, NamesNumeric src params "column_x" columnX → NamesNumeric src params "column_y" columnY →
        ∀ xs ys : List K, numbersOf src src.rows columnX = xs.map .finite →
          numbersOf src src.rows columnY = ys.map .finite → 3 ≤ min xs.length ys.length →
            StatisticFixed statistic xs ys := by
  have hcore : ∀ (nameX nameY : String) (columnX columnY : DBColumn) (xs ys : List K),
      numbersOf src src.rows columnX = xs.map .finite → numbersOf src src.rows columnY = ys.map .finite →
        (Free src (fun q => (pairedResult (runOn (op (scipyStats E)) nameX nameY (isTruncated src || isTruncated src)
          (numbersOf src (q 0) columnX) (numbersOf src (q 1) columnY)) : Except (Raised ν) (Result ν K))) ↔
            (3 ≤ min xs.length ys.length → StatisticFixed statistic xs ys)) := by
    intro nameX nameY columnX columnY xs ys hx hy
    rw [← pairedResult_iff (ν := ν) hstatistic nameX nameY xs ys, ← hx, ← hy]
    simp only [numbersOf_eq]
    exact free_two _ _ fun l m => (pairedResult (runOn (op (scipyStats E)) nameX nameY
      (isTruncated src || isTruncated src) l m) : Except (Raised ν) (Result ν K))
  simp only [paired, free_bind, series_eq, bind_assoc, ok_bind, orRaise_eq_ok, requireTypes_eq_ok]
  constructor
  · rintro h columnX columnY ⟨nameX, ⟨hnameX, hX⟩, hnumericX⟩ ⟨nameY, ⟨hnameY, hY⟩, hnumericY⟩ xs ys hx hy
    have hfree := h nameX hnameX columnX hX () hnumericX nameY hnameY columnY hY () hnumericY
    simp only [run_eq (columnOf_eq_ok.mp hX).2 hnumericX (columnOf_eq_ok.mp hY).2 hnumericY] at hfree
    exact (hcore (nameOf nameX) (nameOf nameY) columnX columnY xs ys hx hy).mp hfree
  · intro h nameX hnameX columnX hX _ hnumericX nameY hnameY columnY hY _ hnumericY
    obtain ⟨xs, hx⟩ := numbers_exact hexact hX hnumericX
    obtain ⟨ys, hy⟩ := numbers_exact hexact hY hnumericY
    simp only [run_eq (columnOf_eq_ok.mp hX).2 hnumericX (columnOf_eq_ok.mp hY).2 hnumericY]
    refine (hcore (nameOf nameX) (nameOf nameY) columnX columnY xs ys hx hy).mpr ?_
    exact h columnX columnY ⟨nameX, ⟨hnameX, hX⟩, hnumericX⟩ ⟨nameY, ⟨hnameY, hY⟩, hnumericY⟩ xs ys hx hy

/-! ## Coefficients -/

omit [Arithmetic K] in
theorem allEqual_take {xs : List K} (h : AllEqual xs) (n : Nat) : AllEqual (xs.take n) := fun x hx y hy =>
  h x (List.mem_of_mem_take hx) y (List.mem_of_mem_take hy)

omit [Arithmetic K] in
/-- Different values come first in some order. -/
theorem exists_perm_of_not_allEqual {xs : List K} (h : ¬ AllEqual xs) :
    ∃ x x' rest, x ≠ x' ∧ (x :: x' :: rest).Perm xs := by
  unfold AllEqual at h
  push Not at h
  obtain ⟨x, hx, x', hx', hne⟩ := h
  obtain ⟨rest, hrest⟩ := exists_perm_cons₂ hx hx' hne
  exact ⟨x, x', rest, hne, hrest.symm⟩

omit [Arithmetic K] in
/-- A coefficient that is none where a sample has one value, and that exchanges change otherwise. -/
theorem coefficient_fixed_iff {coefficient : List K → List K → Double K × Double K} {label : String}
    (hconstant : ∀ xs ys, AllEqual xs ∨ AllEqual ys → coefficient xs ys = (.nan, .nan))
    (hexchange : ∀ {x x' y y' : K}, x ≠ x' → y ≠ y' → ∀ xs ys,
      (coefficient (x :: x' :: xs) (y :: y' :: ys)).1 ≠ (coefficient (x :: x' :: xs) (y' :: y :: ys)).1)
    {xs ys : List K} (hthree : 3 ≤ min xs.length ys.length) :
    StatisticFixed (fun xs ys => some [(label, (coefficient xs ys).1), ("p_value", (coefficient xs ys).2)]) xs ys ↔
      AllEqual xs ∨ AllEqual ys := by
  constructor
  · intro h
    by_contra hnot
    obtain ⟨hx, hy⟩ := not_or.mp hnot
    obtain ⟨x, x', xs', hne, hxs⟩ := exists_perm_of_not_allEqual hx
    obtain ⟨y, y', ys', hne', hys⟩ := exists_perm_of_not_allEqual hy
    obtain ⟨n, hn⟩ : ∃ n, min xs.length ys.length = n + 2 := ⟨min xs.length ys.length - 2, by omega⟩
    have hresult := h _ _ _ _ hxs hxs hys ((List.Perm.swap y y' ys').trans hys)
    rw [hn] at hresult
    simp only [List.take_succ_cons] at hresult
    have hlists := Option.some.inj hresult
    exact hexchange hne hne' _ _ (Prod.mk.inj (List.cons.inj hlists).1).2
  · intro h l l' m m' hl hl' hm hm'
    have hnone : ∀ {l m : List K}, l.Perm xs → m.Perm ys →
        coefficient (l.take (min xs.length ys.length)) (m.take (min xs.length ys.length)) = (.nan, .nan) := by
      intro l m hl hm
      refine hconstant _ _ (h.imp (fun hx => ?_) fun hy => ?_)
      · exact allEqual_take (allEqual_perm hl.symm hx) _
      · exact allEqual_take (allEqual_perm hm.symm hy) _
    dsimp only
    rw [hnone hl hm, hnone hl' hm']

/-- An operation with such a coefficient. -/
theorem free_coefficient_iff (hexact : Exact E src) {op : ScipyStats (Double K) → PairedOperation (Double K)}
    (coefficient : List K → List K → Double K × Double K) (label : String)
    (hstatistic : ∀ xs ys : List K, xs.length = ys.length → 3 ≤ xs.length →
      (op (scipyStats E)).statistic (xs.map .finite) (ys.map .finite) =
        some [(label, (coefficient xs ys).1), ("p_value", (coefficient xs ys).2)])
    (hconstant : ∀ xs ys, AllEqual xs ∨ AllEqual ys → coefficient xs ys = (.nan, .nan))
    (hexchange : ∀ {x x' y y' : K}, x ≠ x' → y ≠ y' → ∀ xs ys,
      (coefficient (x :: x' :: xs) (y :: y' :: ys)).1 ≠ (coefficient (x :: x' :: xs) (y' :: y :: ys)).1) :
    Free src (fun q => paired op E src q params) ↔ OneIsConstant src params := by
  rw [free_paired_iff hexact hstatistic]
  refine forall₂_congr fun columnX columnY => forall₂_congr fun hX hY => ?_
  obtain ⟨xs, hx⟩ := hX.numbers_exact hexact
  obtain ⟨ys, hy⟩ := hY.numbers_exact hexact
  rw [hx, hy, List.length_map, List.length_map, allEqual_map_iff, allEqual_map_iff]
  have hinjective : Function.Injective (Double.finite : K → Double K) := fun _ _ => Double.finite.inj
  constructor
  · intro h hthree
    exact (coefficient_fixed_iff hconstant hexchange hthree).mp (h xs ys rfl rfl hthree)
  · intro h xs' ys' hxs hys hthree
    rw [← List.map_injective_iff.mpr hinjective hxs, ← List.map_injective_iff.mpr hinjective hys] at hthree ⊢
    exact (coefficient_fixed_iff hconstant hexchange hthree).mpr (h hthree)

section Documented

variable {F : Functions K} (hdocumented : Documented E.toLibraries F)

include hdocumented

theorem free_pearson_iff (hexact : Exact E src) :
    Free src (fun q => paired opPearsonCorrelation E src q params) ↔ OneIsConstant src params := by
  refine free_coefficient_iff hexact (pearsonr F) "r" (fun xs ys hlength hthree => ?_)
    (fun xs ys => pearsonr_of_allEqual) fun hx hy => pearsonr_exchange_ne hdocumented.root hx hy
  show (E.pearsonr (xs.map .finite) (ys.map .finite)).map _ = _
  rw [hdocumented.pearsonr xs ys hlength hthree]
  rfl

theorem free_spearman_iff (hexact : Exact E src) :
    Free src (fun q => paired opSpearmanCorrelation E src q params) ↔ OneIsConstant src params := by
  refine free_coefficient_iff hexact (spearmanr F) "rho" (fun xs ys hlength hthree => ?_)
    (fun xs ys => spearmanr_of_allEqual) fun hx hy => spearmanr_exchange_ne hdocumented.root hx hy
  show (E.spearmanr (xs.map .finite) (ys.map .finite)).map _ = _
  rw [hdocumented.spearmanr_numbers hlength hthree]
  rfl

end Documented

/-! ## Lines -/

/-- What `op_linear_regression` reports of a line. -/
def lineFields (line : Line K) : List (String × Double K) :=
  [("slope", line.slope), ("intercept", line.intercept), ("r_squared", line.rvalue.square),
    ("p_value", line.pvalue), ("std_err", line.stderr)]

/-- And of numbers. -/
def lineNumbers (F : Functions K) (constantRaises : Bool) (xs ys : List K) : Option (List (String × Double K)) :=
  if minimum xs = maximum xs then
    if constantRaises then none else some (lineFields ⟨.nan, .nan, .nan, .nan, .nan⟩)
  else some (lineFields (linregress F xs ys))

theorem statistic_lineNumbers {F : Functions K} (hdocumented : Documented E.toLibraries F) (xs ys : List K)
    (hlength : xs.length = ys.length) (hthree : 3 ≤ xs.length) :
    (opLinearRegression (scipyStats E)).statistic (xs.map .finite) (ys.map .finite) =
      lineNumbers F E.constantRaises xs ys := by
  show ((E.linregress (xs.map .finite) (ys.map .finite)).map _).map _ = _
  rw [lineNumbers]
  by_cases hx : AllEqual xs
  · rw [if_pos (minimum_eq_maximum_iff.mpr hx)]
    cases hraises : E.constantRaises with
    | true =>
      rw [hdocumented.linregress_raises hraises _ _ (by simpa using hlength) (by simpa using hthree)
        (constant_map_iff.mpr hx)]
      rfl
    | false =>
      rw [hdocumented.linregress_constant hraises xs ys hlength hthree hx]
      rfl
  · rw [if_neg fun heq => hx (minimum_eq_maximum_iff.mp heq), hdocumented.linregress xs ys hlength hthree hx]
    rfl

section LineNumbers

variable {F : Functions K} {constantRaises : Bool}

theorem lineNumbers_constant {xs ys : List K} (h : AllEqual xs) : lineNumbers F constantRaises xs ys =
    if constantRaises then none else some (lineFields ⟨.nan, .nan, .nan, .nan, .nan⟩) :=
  if_pos (minimum_eq_maximum_iff.mpr h)

theorem lineNumbers_varies {xs ys : List K} (h : ¬ AllEqual xs) :
    lineNumbers F constantRaises xs ys = some (lineFields (linregress F xs ys)) :=
  if_neg fun heq => h (minimum_eq_maximum_iff.mp heq)

/-- The slope is reported. -/
theorem slope_of_lineFields {line line' : Line K} (h : lineFields line = lineFields line') :
    line.slope = line'.slope := by
  simp only [lineFields, List.cons.injEq, Prod.mk.injEq, true_and] at h
  exact h.1

end LineNumbers

omit [Arithmetic K] in
/-- A number that is there often enough makes up the start of some order. -/
theorem exists_take_replicate [DecidableEq K] {xs : List K} {x : K} {n : Nat} (h : n ≤ xs.count x) :
    ∃ l : List K, l.Perm xs ∧ l.take n = List.replicate n x := by
  refine ⟨xs.filter (fun y => decide (y = x)) ++ xs.filter (fun y => !decide (y = x)),
    List.filter_append_perm _ xs, ?_⟩
  have hcount : xs.filter (fun y => decide (y = x)) = List.replicate (xs.count x) x := by
    refine (List.filter_congr fun y _ => ?_).trans (List.filter_beq x)
    exact (beq_eq_decide y x).symm
  rw [hcount, List.take_append_of_le_length (by rw [List.length_replicate]; exact h), List.take_replicate,
    Nat.min_eq_left h]

omit [Arithmetic K] in
theorem allEqual_replicate (n : Nat) (x : K) : AllEqual (List.replicate n x) := fun _ hy _ hz =>
  (List.eq_of_mem_replicate hy).trans (List.eq_of_mem_replicate hz).symm

/-- A start without a number that makes it up. -/
theorem not_allEqual_take {xs l : List K} {n : Nat} (hn : 0 < n) (hle : n ≤ xs.length) (hl : l.Perm xs)
    (h : ∀ x ∈ xs, xs.count x < n) : ¬ AllEqual (l.take n) := by
  intro hall
  have hlength : (l.take n).length = n := by
    rw [List.length_take, hl.length_eq]
    omega
  obtain ⟨x, hx⟩ := List.exists_mem_of_length_pos (l := l.take n) (by omega)
  have hcount : (l.take n).count x = n := by
    rw [List.count_eq_length.mpr fun y hy => hall x hx y hy, hlength]
  have hsub : (l.take n).count x ≤ l.count x := (List.take_sublist n l).count_le x
  have hbound := h x (hl.mem_iff.mp (List.mem_of_mem_take hx))
  rw [← hl.count_eq] at hbound
  omega

/-- No number makes up a sample of this size. -/
def Uncommon (n : Nat) (xs : List K) : Prop := ∀ x ∈ xs, xs.count x < n

omit [Arithmetic K] in
theorem allEqual_perm_take {xs l : List K} (h : AllEqual xs) (hl : l.Perm xs) (n : Nat) : AllEqual (l.take n) :=
  allEqual_take (fun x hx y hy => h x (hl.mem_iff.mp hx) y (hl.mem_iff.mp hy)) n

omit [Arithmetic K] in
/-- Some order starts with two different values. -/
theorem exists_not_allEqual_take {xs : List K} (h : ¬ AllEqual xs) {n : Nat} (hn : 2 ≤ n) :
    ∃ l : List K, l.Perm xs ∧ ¬ AllEqual (l.take n) := by
  obtain ⟨x, x', rest, hne, hxs⟩ := exists_perm_of_not_allEqual h
  obtain ⟨n, rfl⟩ := Nat.exists_eq_add_of_le' hn
  refine ⟨_, hxs, fun hall => hne (hall x ?_ x' ?_)⟩
  · simp only [List.take_succ_cons, List.mem_cons, true_or]
  · simp only [List.take_succ_cons, List.mem_cons, true_or, or_true]

section LineFixed

variable {F : Functions K} {constantRaises : Bool}

theorem lineNumbers_fixed {xs ys : List K} (hthree : 3 ≤ min xs.length ys.length)
    (h : AllEqual xs ∨ AllEqual ys ∧ Uncommon (min xs.length ys.length) xs) :
    StatisticFixed (lineNumbers F constantRaises) xs ys := by
  intro l l' m m' hl hl' hm hm'
  rcases h with hx | ⟨hy, hx⟩
  · rw [lineNumbers_constant (allEqual_perm_take hx hl _), lineNumbers_constant (allEqual_perm_take hx hl' _)]
  · have hvaries : ∀ {l : List K}, l.Perm xs → ¬ AllEqual (l.take (min xs.length ys.length)) := fun hl =>
      not_allEqual_take (by omega) (Nat.min_le_left _ _) hl hx
    rw [lineNumbers_varies (hvaries hl), lineNumbers_varies (hvaries hl'), ← eq_of_allEqual hm.symm hy,
      ← eq_of_allEqual hm'.symm hy, linregress_level (allEqual_take hy _), linregress_level (allEqual_take hy _)]

theorem lineNumbers_not_fixed {xs ys : List K} (hthree : 3 ≤ min xs.length ys.length)
    (h : StatisticFixed (lineNumbers F constantRaises) xs ys) :
    AllEqual xs ∨ AllEqual ys ∧ Uncommon (min xs.length ys.length) xs := by
  by_cases hx : AllEqual xs
  · exact .inl hx
  · have hy : AllEqual ys := by
      by_contra hy
      obtain ⟨x, x', xs', hne, hxs⟩ := exists_perm_of_not_allEqual hx
      obtain ⟨y, y', ys', hne', hys⟩ := exists_perm_of_not_allEqual hy
      obtain ⟨n, hn⟩ : ∃ n, min xs.length ys.length = n + 2 := ⟨min xs.length ys.length - 2, by omega⟩
      have hresult := h _ _ _ _ hxs hxs hys ((List.Perm.swap y y' ys').trans hys)
      rw [hn] at hresult
      simp only [List.take_succ_cons] at hresult
      rw [lineNumbers_varies (not_allEqual_cons hne _), lineNumbers_varies (not_allEqual_cons hne _)] at hresult
      exact linregress_exchange_ne hne hne' _ _ (slope_of_lineFields (Option.some.inj hresult))
    refine .inr ⟨hy, ?_⟩
    by_contra hcommon
    unfold Uncommon at hcommon
    push Not at hcommon
    obtain ⟨x, -, hcount⟩ := hcommon
    obtain ⟨l, hl, hstart⟩ := exists_take_replicate hcount
    obtain ⟨l', hl', hvaries⟩ := exists_not_allEqual_take hx (by omega : 2 ≤ min xs.length ys.length)
    -- one start has a line, the other has none
    have hresult := h l l' ys ys hl hl' (List.Perm.refl _) (List.Perm.refl _)
    rw [hstart, lineNumbers_varies hvaries, lineNumbers_constant (allEqual_replicate _ x)] at hresult
    cases constantRaises with
    | true => cases hresult
    | false =>
      have hslope := slope_of_lineFields (Option.some.inj hresult)
      rw [linregress_level (allEqual_take hy _)] at hslope
      cases hslope

end LineFixed

theorem neverAlike_map_iff {n : Nat} {xs : List K} : NeverAlike n (xs.map .finite) ↔ Uncommon n xs := by
  have hinjective : Function.Injective (Double.finite : K → Double K) := fun _ _ => Double.finite.inj
  have hcount : ∀ x : K, (xs.map Double.finite).count (.finite x) = xs.count x := fun x =>
    List.count_map_of_injective xs _ hinjective x
  unfold NeverAlike Uncommon
  simp only [List.forall_mem_map, hcount]

theorem free_linearRegression_iff {F : Functions K} (hdocumented : Documented E.toLibraries F)
    (hexact : Exact E src) :
    Free src (fun q => paired opLinearRegression E src q params) ↔ LineIsFixed src params := by
  rw [free_paired_iff hexact (statistic_lineNumbers hdocumented)]
  refine forall₂_congr fun columnX columnY => forall₂_congr fun hX hY => ?_
  obtain ⟨xs, hx⟩ := hX.numbers_exact hexact
  obtain ⟨ys, hy⟩ := hY.numbers_exact hexact
  dsimp only
  rw [hx, hy, List.length_map, List.length_map, allEqual_map_iff, allEqual_map_iff, neverAlike_map_iff]
  constructor
  · intro h hthree
    exact lineNumbers_not_fixed hthree (h xs ys rfl rfl hthree)
  · intro h xs' ys' hxs hys hthree
    rw [← map_finite_injective hxs, ← map_finite_injective hys] at hthree ⊢
    exact lineNumbers_fixed hthree (h hthree)

end Pairs

end Analytics
