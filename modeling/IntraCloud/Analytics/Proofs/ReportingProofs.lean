import IntraCloud.Analytics.Proofs.OperationsProofs
import IntraCloud.Analytics.Proofs.RegistryProofs
import IntraCloud.Analytics.Reporting
import IntraCloud.Relational.Grouping
import IntraCloud.Statistics.Proofs.SamplesProofs

/-!
# When the statistical operations report numbers

Whatever an operation does before its statistic, the result is defined exactly if the samples that reach the statistic
are numbers, and vary enough for it.
-/

namespace Analytics

open Databases Python Relational Statistics

variable {ν K : Type}

/-! ## Results -/

/-- What is returned, if anything, is defined. -/
def DefinedIf (x : Except (Raised ν) (Result ν K)) : Prop :=
  ∀ result, x = .ok result → ∀ member ∈ result, member.2.Defined

section Results

variable {α : Type}

theorem ok_bind {β ε : Type} (a : α) (f : α → Except ε β) : ((.ok a : Except ε α) >>= f) = f a := rfl

@[simp] theorem defined_text (s : String) : (Datum.text s : Datum ν K).Defined := trivial

@[simp] theorem defined_count (n : Nat) : (Datum.count n : Datum ν K).Defined := trivial

@[simp] theorem defined_flag (b : Bool) : (Datum.flag b : Datum ν K).Defined := trivial

@[simp] theorem defined_texts (items : List String) : (Datum.field (.texts items) : Datum ν K).Defined := trivial

@[simp] theorem defined_labels (values : List ν) : (Datum.labels values : Datum ν K).Defined := trivial

@[simp] theorem defined_counts (values : List Nat) : (Datum.counts values : Datum ν K).Defined := trivial

@[simp] theorem defined_number (x : Double K) : (Datum.number x : Datum ν K).Defined ↔ x.Defined := Iff.rfl

theorem definedIf_pure {result : Result ν K} :
    DefinedIf (pure result : Except (Raised ν) (Result ν K)) ↔ ∀ member ∈ result, member.2.Defined := by
  constructor
  · intro h
    exact h result rfl
  · intro h result' hresult
    rwa [pure_eq_ok.mp hresult]

theorem definedIf_error (e : Raised ν) : DefinedIf (.error e : Except (Raised ν) (Result ν K)) := by
  intro result hresult
  cases hresult

theorem definedIf_bind {x : Except (Raised ν) α} {f : α → Except (Raised ν) (Result ν K)} :
    DefinedIf (x >>= f) ↔ ∀ a, x = .ok a → DefinedIf (f a) := by
  constructor
  · intro h a ha result hresult
    exact h result (bind_eq_ok.mpr ⟨a, ha, hresult⟩)
  · intro h result hresult
    obtain ⟨a, ha, hf⟩ := bind_eq_ok.mp hresult
    exact h a ha result hf

end Results

/-! ## Two columns -/

section Paired

variable {E : Environment ν K} {src : Source ν (Double K)} {q : Answers ν} {params : PyJson}

theorem columnOf_eq_ok {columns : List DBColumn} {name : PyJson} {column : DBColumn} :
    (columnOf columns name : Except (Raised ν) DBColumn) = .ok column ↔
      (∃ s, name = .str s) ∧ getColumn columns (nameOf name) = .ok column := by
  cases name with
  | str s => simp [columnOf, nameOf, orRaise_eq_ok]
  | _ => simp [columnOf]

theorem numericSeries_eq {column : DBColumn} {n : String} (hcolumn : getColumn src.columns n = .ok column)
    (hnumeric : column.dataType ∈ NUMERIC_TYPES) (fetched : List (Row ν)) :
    numericSeries src fetched n = .ok (numbersOf src fetched column, src.rows.length, isTruncated src) := by
  unfold numericSeries
  rw [hcolumn]
  simp only [requireTypes, if_pos hnumeric]
  simp [fetchColumns, numbersOf, valuesOf, isTruncated, List.filterMap_map, List.map_filterMap, Function.comp_def]

/-- The result of an operation with these numbers. -/
def members {φ : Type} (op : PairedOperation φ) (nameX nameY : String) (numbers : List (String × φ)) (n : Nat)
    (truncated : Bool) : List (String × Field φ) :=
  ("operation", .text op.operation) :: ("method", .text op.method) :: op.columnFields nameX nameY ++
    numbers.map (fun number => (number.1, Field.number number.2)) ++
    [("sample_size", .count n), ("assumptions", .texts op.assumptions), ("interpretation_note", .text CAUSATION_NOTE),
      ("truncated", .flag truncated)]

/-- The samples of the columns, if there are enough pairs. -/
theorem run_eq_ok (op : PairedOperation (Double K)) {fetchedX fetchedY : List (Row ν)} {nameX nameY : String}
    {columnX columnY : DBColumn} (hX : getColumn src.columns nameX = .ok columnX)
    (hnumericX : columnX.dataType ∈ NUMERIC_TYPES) (hY : getColumn src.columns nameY = .ok columnY)
    (hnumericY : columnY.dataType ∈ NUMERIC_TYPES) {n : Nat}
    (hn : n = min (numbersOf src fetchedX columnX).length (numbersOf src fetchedY columnY).length)
    {result : List (String × Field (Double K))} :
    op.run src fetchedX fetchedY nameX nameY = .ok result ↔ 3 ≤ n ∧ ∃ numbers,
      op.statistic ((numbersOf src fetchedX columnX).take n) ((numbersOf src fetchedY columnY).take n) =
          some numbers ∧
        result = members op nameX nameY numbers ((numbersOf src fetchedX columnX).take n).length
          (isTruncated src || isTruncated src) := by
  subst hn
  unfold PairedOperation.run pairedSample
  rw [numericSeries_eq hX hnumericX, numericSeries_eq hY hnumericY]
  by_cases hfew : min (numbersOf src fetchedX columnX).length (numbersOf src fetchedY columnY).length < 3
  · simp only [requireMinN, if_pos hfew, reduceCtorEq, false_iff]
    exact fun h => absurd hfew (Nat.not_lt.mpr h.1)
  · simp only [requireMinN, if_neg hfew, Nat.le_of_not_lt hfew, true_and]
    cases op.statistic _ _ with
    | none => simp
    | some numbers => simp [members, eq_comm]

/-- Only the numbers of the statistic can be undefined. -/
theorem defined_members {op : PairedOperation (Double K)} {nameX nameY : String} {numbers : List (String × Double K)}
    {n : Nat} {truncated : Bool}
    (hfields : ∀ m ∈ op.columnFields nameX nameY, (Datum.field m.2 : Datum ν K).Defined) :
    (∀ member ∈ (members op nameX nameY numbers n truncated).map fun f => (f.1, (Datum.field f.2 : Datum ν K)),
      member.2.Defined) ↔ ∀ m ∈ numbers, m.2.Defined := by
  constructor
  · intro h m hm
    refine h (m.1, .field (.number m.2)) (List.mem_map.mpr ⟨(m.1, .number m.2), ?_, rfl⟩)
    exact List.mem_append_left _ (List.mem_append_right _ (List.mem_map.mpr ⟨m, hm, rfl⟩))
  · intro h member hmember
    obtain ⟨f, hf, rfl⟩ := List.mem_map.mp hmember
    simp only [members, List.cons_append, List.mem_cons, List.mem_append, List.mem_map, List.not_mem_nil,
      or_false] at hf
    rcases hf with rfl | rfl | (hf | ⟨m, hm, rfl⟩) | rfl | rfl | rfl | rfl
    · trivial
    · trivial
    · exact hfields f hf
    · exact h m hm
    · trivial
    · trivial
    · trivial
    · trivial

/-- The result of an operation on two columns is defined if its statistic is. -/
theorem definedIf_paired [Arithmetic K] {E : Environment ν K} {op : ScipyStats (Double K) → PairedOperation (Double K)}
    (Good : List (Double K) → List (Double K) → Prop)
    (hfields : ∀ x y, ∀ m ∈ (op (scipyStats E)).columnFields x y, (Datum.field m.2 : Datum ν K).Defined)
    (hstatistic : ∀ xs ys, xs.length = ys.length → 3 ≤ xs.length →
      ((∀ numbers, (op (scipyStats E)).statistic xs ys = some numbers → ∀ m ∈ numbers, m.2.Defined) ↔ Good xs ys)) :
    DefinedIf (paired op E src q params) ↔ ∀ xs ys, PairedSamples src q params xs ys → Good xs ys := by
  have hlengths : ∀ xs ys : List (Double K), 3 ≤ min xs.length ys.length →
      (xs.take (min xs.length ys.length)).length = (ys.take (min xs.length ys.length)).length ∧
        3 ≤ (xs.take (min xs.length ys.length)).length := by
    intro xs ys hn
    rw [List.length_take, List.length_take]
    omega
  simp only [paired, definedIf_bind, Prod.forall, series_eq_ok, orRaise_eq_ok]
  constructor
  · rintro h xs ys ⟨columnX, columnY, ⟨nameX, ⟨hnameX, hX⟩, hnumericX⟩, ⟨nameY, ⟨hnameY, hY⟩, hnumericY⟩, hn, rfl,
      rfl⟩
    obtain ⟨hsame, hthree⟩ := hlengths _ _ hn
    refine (hstatistic _ _ hsame hthree).mp fun numbers hnumbers => ?_
    have hrun := (run_eq_ok (op (scipyStats E)) (columnOf_eq_ok.mp hX).2 hnumericX (columnOf_eq_ok.mp hY).2 hnumericY
      rfl).mpr ⟨hn, numbers, hnumbers, rfl⟩
    have hdefined := h nameX hnameX _ _ ⟨columnX, hX, hnumericX, rfl, rfl⟩ nameY hnameY _ _
      ⟨columnY, hY, hnumericY, rfl, rfl⟩ _ hrun
    exact (defined_members (hfields _ _)).mp (definedIf_pure.mp hdefined)
  · rintro h nameX hnameX _ _ ⟨columnX, hX, hnumericX, rfl, rfl⟩ nameY hnameY _ _ ⟨columnY, hY, hnumericY, rfl, rfl⟩
      members hrun
    obtain ⟨hn, numbers, hnumbers, rfl⟩ := (run_eq_ok (op (scipyStats E)) (columnOf_eq_ok.mp hX).2 hnumericX
      (columnOf_eq_ok.mp hY).2 hnumericY rfl).mp hrun
    have hgood := h _ _ ⟨columnX, columnY, ⟨nameX, ⟨hnameX, hX⟩, hnumericX⟩, ⟨nameY, ⟨hnameY, hY⟩, hnumericY⟩, hn,
      rfl, rfl⟩
    obtain ⟨hsame, hthree⟩ := hlengths _ _ hn
    exact definedIf_pure.mpr
      ((defined_members (hfields _ _)).mpr ((hstatistic _ _ hsame hthree).mpr hgood numbers hnumbers))

/-- A coefficient and its p-value. -/
theorem coefficient_defined_iff {result : Option (Double K × Double K)} {label : String} {Good : Prop}
    (h : ∃ r p, result = some (r, p) ∧ (BothDefined (r, p) ↔ Good)) :
    (∀ numbers, (result.map fun (r, p) => [(label, r), ("p_value", p)]) = some numbers →
      ∀ m ∈ numbers, m.2.Defined) ↔ Good := by
  obtain ⟨r, p, rfl, hgood⟩ := h
  rw [← hgood]
  constructor
  · intro hall
    have hboth := hall _ rfl
    exact ⟨hboth _ List.mem_cons_self, hboth _ (List.mem_cons_of_mem _ List.mem_cons_self)⟩
  · rintro ⟨hr, hp⟩ numbers hnumbers m hm
    rw [← Option.some.inj hnumbers, List.mem_cons, List.mem_singleton] at hm
    rcases hm with rfl | rfl
    · exact hr
    · exact hp

variable [Arithmetic K] {E : Environment ν K} {F : Functions K} (hdocumented : Documented E.toLibraries F)

include hdocumented

theorem definedIf_pearson : DefinedIf (paired opPearsonCorrelation E src q params) ↔
    ∀ xs ys, PairedSamples src q params xs ys → Varies xs ∧ Varies ys := by
  refine definedIf_paired (fun xs ys => Varies xs ∧ Varies ys) (fun x y m hm => ?_) fun xs ys hlength hthree => ?_
  · rw [List.mem_singleton.mp hm]
    trivial
  · exact coefficient_defined_iff (hdocumented.pearsonr_defined hlength hthree)

theorem definedIf_spearman : DefinedIf (paired opSpearmanCorrelation E src q params) ↔
    ∀ xs ys, PairedSamples src q params xs ys → RanksVary xs ∧ RanksVary ys := by
  refine definedIf_paired (fun xs ys => RanksVary xs ∧ RanksVary ys) (fun x y m hm => ?_)
    fun xs ys hlength hthree => ?_
  · rw [List.mem_singleton.mp hm]
    trivial
  · exact coefficient_defined_iff (hdocumented.spearmanr_defined hlength hthree)

omit hdocumented in
theorem defined_square_iff {x : Double K} : x.square.Defined ↔ x.Defined := by
  cases x <;> exact Iff.rfl

theorem definedIf_linearRegression : DefinedIf (paired opLinearRegression E src q params) ↔
    ∀ xs ys, PairedSamples src q params xs ys →
      E.constantRaises = true ∧ Constant xs ∨ Varies xs ∧ Varies ys := by
  refine definedIf_paired (fun xs ys => E.constantRaises = true ∧ Constant xs ∨ Varies xs ∧ Varies ys)
    (fun x y m hm => ?_) fun xs ys hlength hthree => ?_
  · simp only [opLinearRegression, List.mem_cons, List.not_mem_nil, or_false] at hm
    rcases hm with rfl | rfl
    · trivial
    · trivial
  · rw [← hdocumented.linregress_defined hlength hthree]
    simp only [opLinearRegression, scipyStats, Option.map_map, Option.map_eq_some_iff, forall_exists_index, and_imp,
      forall_apply_eq_imp_iff₂, Function.comp_apply]
    refine forall₂_congr fun line _ => ?_
    constructor
    · intro hall
      simp only [List.forall_mem_cons, defined_square_iff] at hall
      exact ⟨hall.1, hall.2.1, hall.2.2.1, hall.2.2.2.1, hall.2.2.2.2.1⟩
    · intro hline
      simp only [List.forall_mem_cons, defined_square_iff]
      exact ⟨hline.slope, hline.intercept, hline.rvalue, hline.pvalue, hline.stderr, List.forall_mem_nil _⟩

end Paired

/-! ## Two groups -/

section TTest

variable [Arithmetic K] {E : Environment ν K} {src : Source ν (Double K)} {q : Answers ν} {params : PyJson}
  {F : Functions K} (hdocumented : Documented E.toLibraries F)

include hdocumented

theorem definedIf_tTest {a b : List (Double K)} {truncated : Bool} :
    DefinedIf (tTest E a b truncated) ↔
      (2 ≤ a.length → 2 ≤ b.length → AllDefined a ∧ AllDefined b ∧ (Varies a ∨ Varies b)) := by
  unfold tTest
  simp only [definedIf_bind, orRaise_eq_ok, requireMinN_eq_ok, forall_const]
  refine forall_congr' fun ha => forall_congr' fun hb => ?_
  obtain ⟨t, p, hresult, hdefined⟩ := hdocumented.ttestInd_defined ha hb
  rw [← hdefined, hresult]
  simp [orValueError, definedIf_pure, BothDefined]

theorem definedIf_opTTest : DefinedIf (opTTest E src q params) ↔
    ∀ a b, TTestSamples E src q params a b → AllDefined a ∧ AllDefined b ∧ (Varies a ∨ Varies b) := by
  simp only [opTTest, definedIf_bind, series_eq_ok, Prod.forall]
  constructor
  · rintro h a b ⟨ha, hb, column, nameB, ⟨name, ⟨hname, hcolumn⟩, hnumeric⟩, hnameB, hcase⟩
    have hsamples := h name hname _ _ ⟨column, hcolumn, hnumeric, rfl, rfl⟩ nameB hnameB
    split at hcase
    next htruthy =>
      obtain ⟨columnB, hcolumnB, hnumericB, rfl, rfl⟩ := hcase
      rw [if_pos htruthy, definedIf_bind] at hsamples
      have hseries := hsamples _ (series_eq_ok.mpr ⟨columnB, hcolumnB, hnumericB, rfl, rfl⟩)
      exact (definedIf_tTest hdocumented).mp hseries ha hb
    next htruthy =>
      obtain ⟨group, labelA, labelB, ⟨groupName, ⟨hgroupName, hgroup⟩, hcategorical⟩, hgroups⟩ := hcase
      rw [if_neg htruthy] at hsamples
      simp only [definedIf_bind, orRaise_eq_ok, requireTypes_eq_ok] at hsamples
      have htest := hsamples groupName hgroupName group hgroup () hcategorical column hcolumn _ (fetch_two ..)
      have hrows : groupsOf E src (fetchColumns src.valueType src.cap src.rows (q 1) [column.name, group.name]).rows =
          [(labelA, a), (labelB, b)] := hgroups
      rw [hrows] at htest
      exact (definedIf_tTest hdocumented).mp htest ha hb
  · intro h name hname a _ hseries nameB hnameB
    obtain ⟨column, hcolumn, hnumeric, rfl, rfl⟩ := hseries
    have hcase := fun a b ha hb hif => h a b ⟨ha, hb, column, nameB, ⟨name, ⟨hname, hcolumn⟩, hnumeric⟩, hnameB, hif⟩
    split
    next htruthy =>
      rw [definedIf_bind]
      rintro ⟨b, tb⟩ hseries
      obtain ⟨columnB, hcolumnB, hnumericB, rfl, rfl⟩ := series_eq_ok.mp hseries
      refine (definedIf_tTest hdocumented).mpr fun ha hb => hcase _ _ ha hb ?_
      rw [if_pos htruthy]
      exact ⟨columnB, hcolumnB, hnumericB, rfl, rfl⟩
    next htruthy =>
      simp only [definedIf_bind, orRaise_eq_ok, requireTypes_eq_ok]
      intro groupName hgroupName group hgroup _ hcategorical column' hcolumn' fetched hfetched
      obtain rfl : column = column' := Except.ok.inj (hcolumn.symm.trans hcolumn')
      obtain rfl : _ = fetched := Except.ok.inj ((fetch_two ..).symm.trans hfetched)
      split
      next labelA a labelB b hgroups =>
        refine (definedIf_tTest hdocumented).mpr fun ha hb => hcase _ _ ha hb ?_
        rw [if_neg htruthy]
        exact ⟨group, labelA, labelB, ⟨groupName, ⟨hgroupName, hgroup⟩, hcategorical⟩, hgroups⟩
      next => exact definedIf_error _

end TTest

/-! ## Tables of counts -/

section ChiSquare

variable [Arithmetic K] {E : Environment ν K} {src : Source ν (Double K)} {q : Answers ν} {params : PyJson}

omit [Arithmetic K] in
theorem mem_sortedValues {values : List ν} {v : ν} (h : v ∈ sortedValues E values) : v ∈ values :=
  mem_of_mem_distinct (List.mem_mergeSort.mp h)

omit [Arithmetic K] in
theorem exists_same_sortedValues {values : List ν} (hsame : ∀ v ∈ values, E.same v v = true) {v : ν}
    (hv : v ∈ values) : ∃ k ∈ sortedValues E values, E.same k v = true := by
  obtain ⟨k, hk, hkv⟩ := exists_same_distinct hsame hv
  exact ⟨k, List.mem_mergeSort.mpr hk, hkv⟩

omit [Arithmetic K] in
/-- Every value that occurs is counted somewhere. -/
theorem filled_tableCounts {pairs : List (ν × ν)}
    (hsame : ∀ p ∈ pairs, E.same p.1 p.1 = true ∧ E.same p.2 p.2 = true) : Filled (tableCounts E pairs) := by
  have hfirst : ∀ v ∈ pairs.map (·.1), E.same v v = true := by
    intro v hv
    obtain ⟨p, hp, rfl⟩ := List.mem_map.mp hv
    exact (hsame p hp).1
  have hsecond : ∀ v ∈ pairs.map (·.2), E.same v v = true := by
    intro v hv
    obtain ⟨p, hp, rfl⟩ := List.mem_map.mp hv
    exact (hsame p hp).2
  constructor
  · intro row hrow
    obtain ⟨a, ha, rfl⟩ := List.mem_map.mp hrow
    obtain ⟨p, hp, rfl⟩ := List.mem_map.mp (mem_sortedValues ha)
    obtain ⟨b, hb, hbp⟩ := exists_same_sortedValues hsecond (List.mem_map_of_mem hp)
    refine ⟨_, List.mem_map_of_mem hb, List.countP_pos_iff.mpr ⟨p, hp, ?_⟩⟩
    rw [(hsame p hp).1, hbp]
    rfl
  · intro j hj
    have hlength : j < (sortedValues E (pairs.map (·.2))).length := by
      unfold tableCounts at hj
      cases hvalues : sortedValues E (pairs.map (·.1)) with
      | nil =>
        rw [hvalues] at hj
        exact absurd hj (Nat.not_lt_zero j)
      | cons a as =>
        rw [hvalues] at hj
        simpa using hj
    have hb := List.getElem_mem hlength
    obtain ⟨p, hp, hpb⟩ := List.mem_map.mp (mem_sortedValues hb)
    obtain ⟨a, ha, hap⟩ := exists_same_sortedValues hfirst (List.mem_map_of_mem hp)
    refine ⟨_, List.mem_map_of_mem ha, ?_⟩
    rw [List.getElem?_map, List.getElem?_eq_getElem hlength]
    refine List.countP_pos_iff.mpr ⟨p, hp, ?_⟩
    rw [hap, ← hpb, (hsame p hp).2]
    rfl

omit [Arithmetic K] in
theorem mem_columns_of_columnOf {name : PyJson} {column : DBColumn}
    (h : (columnOf src.columns name : Except (Raised ν) DBColumn) = .ok column) : column ∈ src.columns := by
  have hcolumn := (columnOf_eq_ok.mp h).2
  unfold getColumn at hcolumn
  split at hcolumn
  next => cases hcolumn
  next hfind =>
    cases hcolumn
    exact List.mem_of_find?_eq_some hfind

omit [Arithmetic K] in
/-- A pair is what a row holds in two columns. -/
theorem mem_pairsOf {fetched : List (Row ν)} {column column' : DBColumn} {p : ν × ν} :
    p ∈ pairsOf (rowsOf src fetched column column') ↔ ∃ r ∈ fetched,
      r.value src.valueType column.name = some p.1 ∧ r.value src.valueType column'.name = some p.2 := by
  unfold pairsOf rowsOf
  rw [List.filterMap_map, List.mem_filterMap]
  refine exists_congr fun r => and_congr_right fun _ => ?_
  rw [Function.comp_apply]
  cases r.value src.valueType column.name <;> cases r.value src.valueType column'.name <;> simp [Prod.ext_iff]

theorem definedIf_chiSquare {F : Functions K} (hdocumented : Documented E.toLibraries F)
    (hsame : SameCategories E src (q 0)) : DefinedIf (opChiSquare E src q params) := by
  simp only [opChiSquare, definedIf_bind, orRaise_eq_ok, requireTypes_eq_ok, requireMinN_eq_ok]
  intro nameA hnameA colA hcolA nameB hnameB colB hcolB _ htypeA _ htypeB fetched hfetched _ _ result hresult
  obtain rfl : _ = fetched := Except.ok.inj ((fetch_two ..).symm.trans hfetched)
  have hfilled : Filled (tableCounts E (pairsOf (rowsOf src (q 0) colA colB))) := by
    refine filled_tableCounts fun p hp => ?_
    obtain ⟨r, hr, hA, hB⟩ := mem_pairsOf.mp hp
    exact ⟨hsame colA (mem_columns_of_columnOf hcolA) htypeA r hr _ hA,
      hsame colB (mem_columns_of_columnOf hcolB) htypeB r hr _ hB⟩
  obtain ⟨statistic, p, dof, hstatistic, hdefined⟩ := hdocumented.chi2Contingency_defined hfilled
  rw [rows_fetchColumns, orValueError_eq_ok, hstatistic] at hresult
  obtain rfl := Option.some.inj hresult
  rw [definedIf_pure]
  simpa using hdefined

end ChiSquare

/-! ## Several groups -/

section Anova

variable [Arithmetic K] {E : Environment ν K} {src : Source ν (Double K)} {q : Answers ν} {params : PyJson}

theorem definedIf_anova {F : Functions K} (hdocumented : Documented E.toLibraries F) :
    DefinedIf (opAnova E src q params) ↔ ∀ samples, AnovaSamples E src q params samples →
      (∀ sample ∈ samples, AllDefined sample.2) ∧ ∃ sample ∈ samples, Varies sample.2 := by
  have hgroups : ∀ samples : List (ν × List (Double K)), 2 ≤ samples.length →
      (∀ sample ∈ samples, 2 ≤ sample.2.length) →
        ∃ f p, E.fOneway (samples.map (·.2)) = some (f, p) ∧ (BothDefined (f, p) ↔
          (∀ sample ∈ samples, AllDefined sample.2) ∧ ∃ sample ∈ samples, Varies sample.2) := by
    intro samples hmany hsize
    have hlength : 2 ≤ (samples.map (·.2)).length := by rwa [List.length_map]
    obtain ⟨f, p, hresult, hdefined⟩ := hdocumented.fOneway_defined hlength (List.forall_mem_map.mpr hsize)
    exact ⟨f, p, hresult, hdefined.trans (and_congr List.forall_mem_map
      (by simp only [List.mem_map, exists_exists_and_eq_and]))⟩
  simp only [opAnova, definedIf_bind, orRaise_eq_ok, requireTypes_eq_ok]
  constructor
  · rintro h samples ⟨hmany, hsize, column, group, ⟨name, ⟨hname, hcolumn⟩, hnumeric⟩,
      ⟨groupName, ⟨hgroupName, hgroup⟩, hcategorical⟩, hsamples⟩
    have hresult := h name hname column hcolumn groupName hgroupName group hgroup () hnumeric () hcategorical _
      (fetch_two ..)
    have hfind : samples.find? (fun g => decide (g.2.length < 2)) = none := by
      refine List.find?_eq_none.mpr fun sample hsample hsmall => ?_
      have hlarge := hsize sample hsample
      have hlt := of_decide_eq_true hsmall
      omega
    rw [rows_fetchColumns, ← hsamples, if_neg (Nat.not_lt.mpr hmany), hfind] at hresult
    obtain ⟨f, p, hstatistic, hdefined⟩ := hgroups samples hmany hsize
    refine hdefined.mp ?_
    rw [hstatistic] at hresult
    simpa [BothDefined] using definedIf_pure.mp hresult
  · intro h name hname column hcolumn groupName hgroupName group hgroup _ hnumeric _ hcategorical fetched hfetched
    obtain rfl : _ = fetched := Except.ok.inj ((fetch_two ..).symm.trans hfetched)
    rw [rows_fetchColumns]
    split
    next => exact definedIf_error _
    next hmany =>
      split
      next => exact definedIf_error _
      next hfind =>
        have hsize : ∀ sample ∈ groupsOf E src (rowsOf src (q 0) column group), 2 ≤ sample.2.length := by
          intro sample hsample
          by_contra hsmall
          exact List.find?_eq_none.mp hfind sample hsample (decide_eq_true (by omega))
        obtain ⟨f, p, hstatistic, hiff⟩ := hgroups _ (Nat.le_of_not_lt hmany) hsize
        have hdefined := hiff.mpr (h _ ⟨Nat.le_of_not_lt hmany, hsize, column, group,
          ⟨name, ⟨hname, hcolumn⟩, hnumeric⟩, ⟨groupName, ⟨hgroupName, hgroup⟩, hcategorical⟩, rfl⟩)
        rw [hstatistic]
        refine definedIf_pure.mpr ?_
        simpa [BothDefined] using hdefined

end Anova

/-! ## Time series -/

section TimeSeries

variable [Arithmetic K] {E : Environment ν K} {src : Source ν (Double K)} {q : Answers ν} {params : PyJson}

theorem defined_percent_iff {x : Double K} : x.percent.Defined ↔ x.Defined := by
  cases x <;> exact Iff.rfl

theorem defined_growthRate {first last growth : Double K} (hfirst : first.Defined) (hlast : last.Defined)
    (h : growthRate first last = some growth) : growth.Defined := by
  cases first with
  | finite x =>
    cases last with
    | finite y =>
      unfold growthRate at h
      split at h
      next => cases h
      next hne =>
        have hx : x ≠ 0 := fun hzero => hne (by rw [hzero])
        cases h
        exact defined_percent_iff.mpr (defined_divide_iff.mpr hx)
    | infinite negative => cases hlast
    | nan => cases hlast
  | infinite negative => cases hfirst
  | nan => cases hfirst

omit [Arithmetic K] in
theorem values_pointsOf (rows : List (List (Option ν))) :
    ((pointsOf E src rows).map (·.2)).Perm ((pairsOf rows).map fun p => src.float p.2) := by
  have hperm : (pointsOf E src rows).Perm ((pairsOf rows).map fun p => (p.1, src.float p.2)) := List.mergeSort_perm ..
  have hmap := hperm.map (·.2)
  rwa [List.map_map] at hmap

theorem definedIf_series {F : Functions K} (hdocumented : Documented E.toLibraries F) {dateCol valueCol : DBColumn}
    {window : Int} {points : List (ν × Double K)} {truncated : Bool} :
    DefinedIf (timeSeries E src dateCol valueCol window points truncated) ↔
      (2 ≤ points.length → 0 < window → AllDefined (points.map (·.2))) := by
  simp only [timeSeries, definedIf_bind, orRaise_eq_ok, requireMinN_eq_ok, forall_const]
  refine forall_congr' fun hsize => ?_
  split
  next hwindow => exact iff_of_true (definedIf_error _) fun h => absurd h (not_lt.mpr hwindow)
  next hwindow =>
    rw [definedIf_pure]
    constructor
    · intro h _ x hx
      have hpoints := h ("points", _)
        (List.mem_cons_of_mem _ (List.mem_cons_of_mem _ (List.mem_cons_of_mem _ (List.mem_cons_self ..))))
      obtain ⟨p, hp, rfl⟩ := List.mem_map.mp hx
      exact hpoints _ (List.mem_map_of_mem hp)
    · intro h
      have hall := h (not_le.mp hwindow)
      have hne : points.map (·.2) ≠ [] := by
        intro hnil
        rw [List.map_eq_nil_iff.mp hnil] at hsize
        cases hsize
      have haverage : window.toNat ≤ (points.map (·.2)).length →
          AllDefined (E.convolve (points.map (·.2)) window.toNat) :=
        fun hlength => hdocumented.convolve_defined (by omega) hlength hall
      have hfirst : Double.Defined ((points.map fun p => p.2).headD (.nan : Double K)) := by
        rw [List.headD_eq_head?_getD, List.head?_eq_some_head hne]
        exact hall _ (List.head_mem hne)
      have hlast : Double.Defined ((points.map fun p => p.2).getLastD (.nan : Double K)) := by
        rw [List.getLastD_eq_getLast?, List.getLast?_eq_some_getLast hne]
        exact hall _ (List.getLast_mem hne)
      have hpoints : ∀ item ∈ points.map fun p => (src.valueType.text p.1, p.2), item.2.Defined := by
        intro item hitem
        obtain ⟨p, hp, rfl⟩ := List.mem_map.mp hitem
        exact hall _ (List.mem_map_of_mem hp)
      simp only [List.forall_mem_cons, defined_text, defined_count, defined_flag, true_and, List.not_mem_nil,
        false_implies, implies_true, and_true]
      refine ⟨hpoints, ?_, ?_⟩
      · split
        next hlength => exact haverage hlength
        next => trivial
      · cases hgrowth : growthRate ((points.map fun p => p.2).headD (.nan : Double K))
            ((points.map fun p => p.2).getLastD .nan) with
        | none => trivial
        | some growth => exact defined_growthRate hfirst hlast hgrowth

theorem definedIf_timeSeriesSummary {F : Functions K} (hdocumented : Documented E.toLibraries F) :
    DefinedIf (opTimeSeriesSummary E src q params) ↔
      ∀ values, SeriesValues E src q params values → AllDefined values := by
  simp only [opTimeSeriesSummary, definedIf_bind, orRaise_eq_ok, requireTypes_eq_ok, definedIf_series hdocumented]
  have hlength : ∀ rows : List (List (Option ν)),
      (pointsOf E src rows).length = ((pairsOf rows).map fun p => src.float p.2).length := by
    intro rows
    rw [← (values_pointsOf rows).length_eq, List.length_map]
  have hall : ∀ rows : List (List (Option ν)), AllDefined ((pointsOf E src rows).map (·.2)) ↔
      AllDefined ((pairsOf rows).map fun p => src.float p.2) :=
    fun rows => forall_congr' fun x => imp_congr (values_pointsOf rows).mem_iff Iff.rfl
  constructor
  · rintro h values ⟨date, value, window, ⟨⟨dateName, ⟨hdateName, hdate⟩, htemporal⟩, valueName, ⟨hvalueName, hvalue⟩,
      hnumeric⟩, ⟨param, hparam, hwindow⟩, hpositive, rfl, hsize⟩
    have hresult := h dateName hdateName date hdate valueName hvalueName value hvalue () htemporal () hnumeric param
      hparam window hwindow _ (fetch_two ..)
    rw [rows_fetchColumns, hlength, hall] at hresult
    exact hresult hsize (by omega)
  · intro h dateName hdateName date hdate valueName hvalueName value hvalue _ htemporal _ hnumeric param hparam window
      hwindow fetched hfetched
    obtain rfl : _ = fetched := Except.ok.inj ((fetch_two ..).symm.trans hfetched)
    rw [rows_fetchColumns, hlength, hall]
    intro hsize hpositive
    exact h _ ⟨date, value, window, ⟨⟨dateName, ⟨hdateName, hdate⟩, htemporal⟩, valueName, ⟨hvalueName, hvalue⟩,
      hnumeric⟩, ⟨param, hparam, hwindow⟩, by omega, rfl, hsize⟩

/-- What `params.get` returns of a member, and not for its default. -/
theorem field_of_getParam {key : String} {default : Int} {literal : List Char}
    (h : (getParam params key (.int default) : Except (Raised ν) PyJson) = .ok (.float literal)) :
    params.field key = some (.float literal) := by
  cases params with
  | dict members =>
    have hvalue : (Json.member? key.toList members).getD (.int default) = .float literal := Except.ok.inj h
    show Json.member? key.toList members = _
    cases hmember : Json.member? key.toList members with
    | none =>
      rw [hmember] at hvalue
      cases hvalue
    | some v =>
      rw [hmember, Option.getD_some] at hvalue
      rw [hvalue]
  | _ => cases h

/-- The summary raises what is not caught only for a window that is an infinite `float`. -/
theorem tame_timeSeriesSummary_iff : Tame (opTimeSeriesSummary E src q params) ↔
    ∀ date value, SeriesColumns src params date value →
      ∀ literal, params.field "window" = some (.float literal) → (E.truncate literal).isSome = true := by
  constructor
  · rintro h date value ⟨⟨dateName, ⟨hdateName, hdate⟩, htemporal⟩, valueName, ⟨hvalueName, hvalue⟩, hnumeric⟩ literal
      hliteral
    by_contra hnone
    rw [Option.not_isSome_iff_eq_none] at hnone
    have hparam : (getParam params "window" (.int 7) : Except (Raised ν) PyJson) = .ok (.float literal) := by
      obtain ⟨members, rfl⟩ := dict_of_subscript hdateName
      rw [PyJson.field_dict] at hliteral
      rw [getParam, PyJson.get_dict, hliteral]
      rfl
    have hoverflow : toInt E (.float literal) = .error .overflowError := by
      rw [toInt, hnone]
    have hraised : opTimeSeriesSummary E src q params = .error .overflowError := by
      unfold opTimeSeriesSummary
      rw [hdateName, ok_bind, hdate, ok_bind, hvalueName, ok_bind, hvalue, ok_bind,
        orRaise_eq_ok.mpr (requireTypes_eq_ok (u := ()).mpr htemporal), ok_bind,
        orRaise_eq_ok.mpr (requireTypes_eq_ok (u := ()).mpr hnumeric), ok_bind, hparam, ok_bind, hoverflow]
      rfl
    have hcaught := h _ hraised
    cases hcaught
  · intro hwindow
    refine tame_bind (tame_subscript _ _) fun dateName hdateName => ?_
    refine tame_bind (tame_columnOf _ _) fun date hdate => ?_
    refine tame_bind (tame_subscript _ _) fun valueName hvalueName => ?_
    refine tame_bind (tame_columnOf _ _) fun value hvalue => ?_
    refine tame_bind (tame_orRaise _) fun _ htemporal => ?_
    refine tame_bind (tame_orRaise _) fun _ hnumeric => ?_
    refine tame_bind (tame_getParam (dict_of_subscript hdateName) _ _) fun param hparam => ?_
    have hcolumns : SeriesColumns src params date value :=
      ⟨⟨dateName, ⟨hdateName, hdate⟩, requireTypes_eq_ok.mp (orRaise_eq_ok.mp htemporal)⟩,
        valueName, ⟨hvalueName, hvalue⟩, requireTypes_eq_ok.mp (orRaise_eq_ok.mp hnumeric)⟩
    refine tame_bind (tame_toInt fun literal hliteral => ?_) fun window _ => ?_
    · rw [hliteral] at hparam
      exact hwindow date value hcolumns literal (field_of_getParam hparam)
    · exact tame_bind (tame_fetch _ (show 2 ≤ MAX_TARGETS by decide)) fun fetched _ => tame_timeSeries

end TimeSeries

/-! ## The statistical operations -/

section Statistical

variable [Arithmetic K] {E : Environment ν K} {src : Source ν (Double K)} {q : Answers ν} {params : PyJson}

/-- They are those of the registry. -/
theorem lookup_statistical : ∀ s ∈ (STATISTICAL : List (StatisticalOperation ν K)),
    OPERATIONS.lookup s.name = some s.operation := by
  intro s hs
  simp only [STATISTICAL, List.mem_cons, List.not_mem_nil, or_false] at hs
  rcases hs with rfl | rfl | rfl | rfl | rfl | rfl | rfl <;> rfl

omit [Arithmetic K] in
theorem reportsDefined_of_tame {op : Operation ν K} (htame : Tame (op E src q params)) :
    ReportsDefined E src q params op ↔ DefinedIf (op E src q params) :=
  and_iff_right htame

end Statistical

/-! ## A constant column -/

def price : DBColumn := ⟨2, 1, "price", .integer, none, none, none, false, true, false, none⟩

def quantity : DBColumn := ⟨3, 1, "quantity", .integer, none, none, none, false, true, false, none⟩

/-- Three sales at the same price. -/
def sales : Source (Int ⊕ String) (Double ℚ) :=
  plainSource [price, quantity] [⟨11, [("price", .inl 5), ("quantity", .inl 1)]⟩,
    ⟨12, [("price", .inl 5), ("quantity", .inl 2)]⟩, ⟨13, [("price", .inl 5), ("quantity", .inl 3)]⟩]

/-- The price and the quantity are asked for. -/
def priceAndQuantity : PyJson :=
  .dict [("column_x".toList, .str "price".toList), ("column_y".toList, .str "quantity".toList)]

theorem sameCategories_plain (src : Source (Int ⊕ String) (Double ℚ)) (rows : List (Row (Int ⊕ String))) :
    SameCategories plainEnvironment src rows := fun _ _ _ _ _ _ _ => decide_eq_true rfl

end Analytics
