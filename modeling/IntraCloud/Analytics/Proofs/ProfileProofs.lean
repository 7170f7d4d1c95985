import IntraCloud.Analytics.Profile
import IntraCloud.Analytics.Proofs.OperationsProofs
import IntraCloud.Relational.Grouping
import Mathlib.Data.List.Nodup

/-!
# Where a profile agrees with the operations

Both compute the same functions of the same values, but for the different values of a column: the profile leaves
`NULL` out of them, `op_distinct_count` counts it as one of them.
-/

namespace Analytics

open Databases Python Relational Statistics

variable {ν K : Type}

/-! ## Different values with and without `None` -/

section Distinct

variable {same : ν → ν → Bool}

theorem filterMap_insertKey (keys : List (Option ν)) (key : Option ν) :
    (insertKey (sameOption same) keys key).filterMap id = key.toList.foldl (insertKey same) (keys.filterMap id) := by
  induction keys with
  | nil => cases key <;> rfl
  | cons key' keys ih =>
    simp only [insertKey]
    split
    next h =>
      cases key' <;> cases key
      · rfl
      · cases h
      · cases h
      · simp only [sameOption] at h
        simp [insertKey, h]
    next h =>
      cases key' <;> cases key
      · simp [sameOption] at h
      · simpa using ih
      · simpa using ih
      · simp only [sameOption] at h
        simpa [insertKey, h] using ih

/-- The different values other than `None`. -/
theorem filterMap_distinct (values : List (Option ν)) :
    (distinct (sameOption same) values).filterMap id = distinct same (values.filterMap id) := by
  suffices h : ∀ keys : List (Option ν), (values.foldl (insertKey (sameOption same)) keys).filterMap id =
      (values.filterMap id).foldl (insertKey same) (keys.filterMap id) by
    rw [distinct_eq, distinct_eq]
    exact h []
  induction values with
  | nil => exact fun _ => rfl
  | cons value values ih =>
    intro keys
    rw [List.foldl_cons, ih, filterMap_insertKey]
    cases value with
    | none => rfl
    | some v => rfl

theorem none_mem_insertKey (keys : List (Option ν)) (key : Option ν) :
    none ∈ insertKey (sameOption same) keys key ↔ none ∈ keys ∨ key = none := by
  induction keys with
  | nil => simp [insertKey, eq_comm]
  | cons key' keys ih =>
    simp only [insertKey]
    split
    next h =>
      cases key' <;> cases key
      · simp
      · cases h
      · cases h
      · simp
    next => simp only [List.mem_cons, ih, or_assoc]

/-- `None` is one of the different values if it is a value. -/
theorem none_mem_distinct (values : List (Option ν)) : none ∈ distinct (sameOption same) values ↔ none ∈ values := by
  suffices h : ∀ keys : List (Option ν), none ∈ values.foldl (insertKey (sameOption same)) keys ↔
      none ∈ keys ∨ none ∈ values by
    rw [distinct_eq, h]
    simp
  induction values with
  | nil => simp
  | cons value values ih =>
    intro keys
    rw [List.foldl_cons, ih, none_mem_insertKey, or_assoc, List.mem_cons, eq_comm (a := value)]

theorem length_filterMap_id_iff (values : List (Option ν)) :
    (values.filterMap id).length = values.length ↔ none ∉ values := by
  induction values with
  | nil => simp
  | cons value values ih =>
    have hle : (values.filterMap id).length ≤ values.length := List.length_filterMap_le id values
    cases value with
    | none =>
      simp only [List.filterMap_cons, id, List.length_cons, List.mem_cons, true_or, not_true_eq_false, iff_false]
      show (values.filterMap id).length ≠ _
      omega
    | some v => simpa using ih

/-- As many different values with `None` as without it: there is no `None`. -/
theorem length_distinct_iff (values : List (Option ν)) :
    (distinct same (values.filterMap id)).length = (distinct (sameOption same) values).length ↔
      none ∉ values := by
  rw [← filterMap_distinct, length_filterMap_id_iff, none_mem_distinct]

end Distinct

/-! ## The figures of a column -/

variable {column : DBColumn} {params : PyJson}

/-- What is missing of a column is `None`. -/
theorem length_filterMap_id (values : List (Option ν)) :
    values.length - (values.filterMap id).length = values.countP Option.isNone := by
  have hparts : (values.filterMap id).length + values.countP Option.isNone = values.length := by
    induction values with
    | nil => rfl
    | cons value values ih =>
      cases value with
      | none => simpa [← Nat.add_assoc] using ih
      | some v =>
        simp only [List.filterMap_cons, id, List.length_cons, Option.isNone_some, Bool.false_eq_true,
          not_false_eq_true, List.countP_cons_of_neg] at ih ⊢
        omega
  omega

section Figures

variable [Arithmetic K] {E : Environment ν K} {src : Source ν (Double K)} {profile : Result ν K}

theorem columnProfile_eq_ok {values : List (Option ν)} : columnProfile E src column values = .ok profile ↔
    (∀ v, some v ∈ values → E.hashable v = true) ∧
      profile = [("name", .text column.name), ("data_type", .text column.dataType.value),
        ("missing_count", .count (values.countP Option.isNone)),
        ("null_percentage", .number (.finite (nullPercentage E (values.countP Option.isNone) values.length))),
        ("unique_count", .count (distinct E.same (values.filterMap id)).length)] ++
        if column.dataType ∈ NUMERIC_TYPES ∧ values.filterMap id ≠ [] then
          numericFigures E ((values.filterMap id).map src.float)
        else if column.dataType ∈ CATEGORICAL_TYPES ∧ values.filterMap id ≠ [] then
          [("top_values", .distribution (mostCommon 5 (counter E.same (values.filterMap id))))]
        else [] := by
  simp only [columnProfile, bind_eq_ok, pure_eq_ok, requireHashable_eq_ok, length_filterMap_id]
  constructor
  · rintro ⟨_, hhashable, hprofile⟩
    exact ⟨fun v hv => hhashable v (by simpa using hv), hprofile⟩
  · rintro ⟨hhashable, hprofile⟩
    exact ⟨(), fun v hv => hhashable v (by simpa using hv), hprofile⟩

/-- The figures of a profile of a column with these values. -/
theorem lookup_profile {values : List (Option ν)} (h : columnProfile E src column values = .ok profile) :
    profile.lookup "missing_count" = some (.count (values.countP Option.isNone)) ∧
      profile.lookup "null_percentage" =
        some (.number (.finite (nullPercentage E (values.countP Option.isNone) values.length))) ∧
      profile.lookup "unique_count" = some (.count (distinct E.same (values.filterMap id)).length) := by
  obtain ⟨_, rfl⟩ := columnProfile_eq_ok.mp h
  refine ⟨?_, ?_, ?_⟩ <;> simp [List.lookup_cons]

theorem lookup_numeric {values : List (Option ν)} (h : columnProfile E src column values = .ok profile)
    (hnumeric : column.dataType ∈ NUMERIC_TYPES) (hvalues : values.filterMap id ≠ []) {name : String}
    (hname : name ∈ ["min", "max", "mean", "median", "stdev", "potential_outlier_count"]) :
    profile.lookup name = (numericFigures E ((values.filterMap id).map src.float)).lookup name := by
  obtain ⟨_, rfl⟩ := columnProfile_eq_ok.mp h
  rw [if_pos ⟨hnumeric, hvalues⟩]
  simp only [List.mem_cons, List.not_mem_nil, or_false] at hname
  rcases hname with rfl | rfl | rfl | rfl | rfl | rfl <;> simp [List.lookup_cons]

/-- Only a column of categories has most common values. -/
theorem lookup_topValues {values : List (Option ν)} (h : columnProfile E src column values = .ok profile)
    {top : Datum ν K} (htop : profile.lookup "top_values" = some top) :
    top = .distribution (mostCommon 5 (counter E.same (values.filterMap id))) := by
  obtain ⟨_, rfl⟩ := columnProfile_eq_ok.mp h
  split at htop
  next => simp [List.lookup_cons, numericFigures] at htop
  next =>
    split at htop
    next => simpa [List.lookup_cons, eq_comm] using htop
    next => simp [List.lookup_cons] at htop

end Figures

/-! ## Agreement -/

section Agreement

theorem names_of_asksFor {src : Source ν (Double K)} (hparams : AsksFor params column)
    (hcolumn : getColumn src.columns column.name = .ok column) {name : PyJson} {c : DBColumn}
    (h : Names src params "column" name c) : c = column := by
  obtain ⟨hname, hc⟩ := h
  obtain ⟨hfield, members, rfl⟩ := hparams
  simp only [subscript, hfield, Except.ok.injEq] at hname
  rw [← hname] at hc
  simp only [columnOf, String.ofList_toList, hcolumn, orRaise, Except.ok.injEq] at hc
  exact hc.symm

variable [Arithmetic K] {E : Environment ν K} {src : Source ν (Double K)} {fetched : List (Row ν)}
  {profile result : Result ν K}
  (hcolumn : getColumn src.columns column.name = .ok column)
  (h : columnProfile E src column (valuesOf src fetched column) = .ok profile) (hparams : AsksFor params column)

include hcolumn h hparams

theorem missing_agrees (hresult : opMissing E src (fun _ => fetched) params = .ok result) :
    profile.lookup "missing_count" = result.lookup "missing_count" ∧
      profile.lookup "null_percentage" = result.lookup "null_percentage" := by
  obtain ⟨hmissing, hpercentage, _⟩ := lookup_profile h
  obtain ⟨name, c, hnames, rfl⟩ := opMissing_eq_ok.mp hresult
  obtain rfl := names_of_asksFor hparams hcolumn hnames
  exact ⟨hmissing.trans (by simp [List.lookup_cons]), hpercentage.trans (by simp [List.lookup_cons, valuesOf])⟩

/-- The different values are counted alike only where none of them is missing. -/
theorem unique_agrees_iff (hresult : opDistinctCount E src (fun _ => fetched) params = .ok result) :
    profile.lookup "unique_count" = result.lookup "distinct_count" ↔ none ∉ valuesOf src fetched column := by
  obtain ⟨_, _, hunique⟩ := lookup_profile h
  obtain ⟨name, c, hnames, _, rfl⟩ := opDistinctCount_eq_ok.mp hresult
  obtain rfl := names_of_asksFor hparams hcolumn hnames
  rw [hunique, ← @length_distinct_iff _ E.same]
  simp [List.lookup_cons, Datum.count]

/-- A numeric operation reports of at least one value what the profile does. -/
theorem descriptive_agrees {opName label figure : String} {minimum : Nat}
    {reducer : Environment ν K → List (Double K) → Double K} (hpositive : 1 ≤ minimum)
    (hfigure : figure ∈ ["min", "max", "mean", "median", "stdev", "potential_outlier_count"])
    (hsame : minimum ≤ (numbersOf src fetched column).length →
      (numericFigures E (numbersOf src fetched column)).lookup figure =
        some (.number (reducer E (numbersOf src fetched column))))
    (hresult : descriptiveNumeric opName label minimum reducer E src (fun _ => fetched) params = .ok result) :
    profile.lookup figure = result.lookup "value" := by
  obtain ⟨name, c, hnames, hnumeric, hmin, rfl⟩ := descriptiveNumeric_eq_ok.mp hresult
  obtain rfl := names_of_asksFor hparams hcolumn hnames
  have hvalues : (valuesOf src fetched c).filterMap id ≠ [] := by
    intro hnil
    simp only [numbersOf, hnil, List.map_nil, List.length_nil] at hmin
    omega
  rw [lookup_numeric h hnumeric hvalues hfigure]
  exact (hsame hmin).trans (by simp [List.lookup_cons])

omit hcolumn h hparams in
theorem potentialOutlierCount_eq {arr : List (Double K)} (h : 4 ≤ arr.length) :
    potentialOutlierCount E arr = (outliers E arr).length := by
  have hquartiles : quartiles E arr = (E.percentile arr (25 : Nat), E.percentile arr (75 : Nat)) :=
    if_pos (by omega)
  rw [potentialOutlierCount, hquartiles]
  exact (if_pos h).trans List.countP_eq_length_filter

theorem outliers_agree (hresult : opOutlierDetection E src (fun _ => fetched) params = .ok result) :
    profile.lookup "potential_outlier_count" = result.lookup "outlier_count" := by
  obtain ⟨name, c, hnames, hnumeric, hmin, hlookup⟩ := opOutlierDetection_eq_ok hresult
  obtain rfl := names_of_asksFor hparams hcolumn hnames
  have hvalues : (valuesOf src fetched c).filterMap id ≠ [] := by
    intro hnil
    simp only [numbersOf, hnil, List.map_nil, List.length_nil] at hmin
    omega
  rw [lookup_numeric h hnumeric hvalues (by simp), hlookup, ← potentialOutlierCount_eq hmin]
  simp [numericFigures, List.lookup_cons, numbersOf]

theorem topValues_agree {values : Datum ν K} (htop : profile.lookup "top_values" = some values) {topN : Int}
    (htopN : (getParam params "top_n" (.int 10) >>= toInt E : Except (Raised ν) Int) = .ok topN) (hfive : 5 ≤ topN)
    (hresult : opFrequencyDistribution E src (fun _ => fetched) params = .ok result) :
    ∃ items, result.lookup "distribution" = some (.distribution items) ∧ values = .distribution (items.take 5) := by
  obtain ⟨name, c, n, hnames, _, ⟨value, hvalue, hint⟩, rfl⟩ := opFrequencyDistribution_eq_ok.mp hresult
  obtain rfl := names_of_asksFor hparams hcolumn hnames
  obtain rfl := lookup_topValues h htop
  rw [hvalue] at htopN
  obtain rfl : n = topN := Except.ok.inj (hint.symm.trans htopN)
  refine ⟨mostCommon (min n 100).toNat (counter E.same ((valuesOf src fetched c).filterMap id)),
    by simp [List.lookup_cons], ?_⟩
  rw [mostCommon, mostCommon, List.take_take, Nat.min_eq_left (by omega)]

omit hparams in
/-- The profile of a column agrees with the operations exactly if no value of the column is missing. -/
theorem agrees_column_iff : Agrees E src fetched column profile ↔ none ∉ valuesOf src fetched column := by
  constructor
  · intro hagrees
    have hasks : AsksFor (.dict [("column".toList, .str column.name.toList)]) column := ⟨rfl, _, rfl⟩
    have hnames : Names src (.dict [("column".toList, .str column.name.toList)]) "column"
        (.str column.name.toList) column :=
      ⟨rfl, by simp only [columnOf, String.ofList_toList, hcolumn, orRaise]⟩
    have hop : opDistinctCount E src (fun _ => fetched) (.dict [("column".toList, .str column.name.toList)]) =
        .ok _ :=
      opDistinctCount_eq_ok.mpr ⟨_, column, hnames, (columnProfile_eq_ok.mp h).1, rfl⟩
    have hfigure := hagrees.figures ⟨"unique_count", opDistinctCount, "distinct_count"⟩ (by simp [FIGURES])
      _ hasks _ hop
    exact (unique_agrees_iff hcolumn h hasks hop).mp hfigure
  · intro hnone
    refine ⟨fun figure hfigure params hparams result hresult => ?_,
      fun values htop params hparams topN htopN hfive result hresult =>
        topValues_agree hcolumn h hparams htop htopN hfive hresult⟩
    simp only [FIGURES, List.mem_cons, List.not_mem_nil, or_false] at hfigure
    rcases hfigure with rfl | rfl | rfl | rfl | rfl | rfl | rfl | rfl | rfl
    · exact (missing_agrees hcolumn h hparams hresult).1
    · exact (missing_agrees hcolumn h hparams hresult).2
    · exact (unique_agrees_iff hcolumn h hparams hresult).mpr hnone
    on_goal 6 => exact outliers_agree hcolumn h hparams hresult
    all_goals dsimp only [opMin, opMax, opMean, opMedian, opStdev] at hresult ⊢
    · exact descriptive_agrees hcolumn h hparams Nat.le.refl (by simp) (fun _ => by simp [numericFigures]) hresult
    · exact descriptive_agrees hcolumn h hparams Nat.le.refl (by simp)
        (fun _ => by simp [numericFigures, List.lookup_cons]) hresult
    · exact descriptive_agrees hcolumn h hparams Nat.le.refl (by simp)
        (fun _ => by simp [numericFigures, List.lookup_cons]) hresult
    · exact descriptive_agrees hcolumn h hparams Nat.le.refl (by simp)
        (fun _ => by simp [numericFigures, List.lookup_cons]) hresult
    · exact descriptive_agrees hcolumn h hparams (Nat.le_succ 1) (by simp)
        (fun hmin => by simp [numericFigures, List.lookup_cons, hmin]) hresult

end Agreement

/-! ## The profile of a table -/

section Table

variable [Arithmetic K] {E : Environment ν K} {src : Source ν (Double K)} {fetched : List (Row ν)} {table : String}
  {profile : Profile ν K}

theorem columnAt_fetchColumns {V : ValueType ν} {cap : Nat} {rows : List (Row ν)} {columns : List DBColumn} {i : Nat}
    (hcolumn : columns[i]? = some column) :
    columnAt (fetchColumns V cap rows fetched (columns.map (·.name))).rows i =
      fetched.map fun r => r.value V column.name := by
  simp [columnAt, fetchColumns, hcolumn]

theorem getElem?_of_mapM {α β ε : Type} {f : α → Except ε β} {as : List α} {bs : List β} (h : as.mapM f = .ok bs)
    {i : Nat} {a : α} {b : β} (ha : as[i]? = some a) (hb : bs[i]? = some b) : f a = .ok b := by
  induction as generalizing bs i with
  | nil => cases ha
  | cons a' as ih =>
    simp only [List.mapM_cons, bind_eq_ok, pure_eq_ok] at h
    obtain ⟨b', hb', bs', hbs, rfl⟩ := h
    cases i with
    | zero =>
      cases ha
      cases hb
      exact hb'
    | succ i => exact ih hbs ha hb

/-- Every column has its profile, of the values that the query returns of it. -/
theorem columnProfile_of_profileTable (h : profileTable E src table fetched = .ok profile) {figures : Result ν K}
    (hzip : (column, figures) ∈ src.columns.zip profile.columns) :
    columnProfile E src column (valuesOf src fetched column) = .ok figures := by
  simp only [profileTable, bind_eq_ok, pure_eq_ok] at h
  obtain ⟨fetchedColumns, hfetch, profiles, hprofiles, rfl⟩ := h
  obtain rfl : fetchColumns src.valueType src.cap src.rows fetched (src.columns.map (·.name)) = fetchedColumns := by
    unfold fetch at hfetch
    split at hfetch
    · cases hfetch
    · exact Except.ok.inj hfetch
  obtain ⟨i, hi⟩ := List.mem_iff_getElem?.mp hzip
  obtain ⟨hcolumn, hfigures⟩ := List.getElem?_zip_eq_some.mp hi
  have hindexed : src.columns.zipIdx[i]? = some (column, i) := by
    simp [List.getElem?_zipIdx, hcolumn]
  have hprofile := getElem?_of_mapM hprofiles hindexed hfigures
  rwa [columnAt_fetchColumns hcolumn] at hprofile

/-- A profile agrees with the operations on a column exactly if the query returned no row without a value of it. -/
theorem agrees_iff (hnames : (src.columns.map (·.name)).Nodup) (h : profileTable E src table fetched = .ok profile) :
    ∀ p ∈ src.columns.zip profile.columns,
      Agrees E src fetched p.1 p.2 ↔ ∀ r ∈ fetched, (r.value src.valueType p.1.name).isSome = true := by
  rintro ⟨column, figures⟩ hzip
  have hcolumn : getColumn src.columns column.name = .ok column :=
    getColumn_of_mem hnames (List.of_mem_zip hzip).1
  rw [agrees_column_iff hcolumn (columnProfile_of_profileTable h hzip)]
  simp [valuesOf, Option.isSome_iff_ne_none]

end Table

/-! ## A column with a NULL -/

def amount : DBColumn := ⟨2, 1, "amount", .integer, none, none, none, false, true, false, none⟩

/-- Two payments, the second of which has no amount yet. -/
def payments : Source (Int ⊕ String) (Double ℚ) := plainSource [amount] [⟨11, [("amount", .inl 5)]⟩, ⟨12, []⟩]

def amountProfile : Result (Int ⊕ String) ℚ :=
  [("name", .text "amount"), ("data_type", .text "integer"), ("missing_count", .count 1),
    ("null_percentage", .number (.finite 50)), ("unique_count", .count 1), ("min", .number (.finite 5)),
    ("max", .number (.finite 5)), ("mean", .number (.finite 5)), ("median", .number (.finite 5)),
    ("stdev", .number (.finite 0)), ("potential_outlier_count", .count 0)]

def paymentsProfile : Profile (Int ⊕ String) ℚ := ⟨"payments", 2, 1, false, 2, [amountProfile]⟩

theorem profileTable_payments :
    profileTable plainEnvironment payments "payments" payments.rows = .ok paymentsProfile := by
  with_unfolding_all rfl

theorem agrees_iff_payments :
    Agrees plainEnvironment payments payments.rows amount amountProfile ↔
      ∀ r ∈ payments.rows, (r.value payments.valueType "amount").isSome = true :=
  agrees_iff (by decide) profileTable_payments (amount, amountProfile) (List.mem_cons_self ..)

/-- `op_distinct_count` counts the amount that is missing, the profile does not. -/
theorem not_agrees_payments :
    profileTable plainEnvironment payments "payments" payments.rows = .ok paymentsProfile ∧
      ¬ ∀ p ∈ payments.columns.zip paymentsProfile.columns,
        Agrees plainEnvironment payments payments.rows p.1 p.2 := by
  refine ⟨profileTable_payments, fun hagrees => ?_⟩
  have hcolumn := columnProfile_of_profileTable profileTable_payments (List.mem_cons_self ..)
  have hnone := (agrees_column_iff rfl hcolumn).mp (hagrees _ (List.mem_cons_self ..))
  exact hnone (List.mem_cons_of_mem _ (List.mem_cons_self ..))

end Analytics
