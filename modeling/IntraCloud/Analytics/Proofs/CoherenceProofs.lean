import IntraCloud.Analytics.Proofs.GroupOrderProofs
import IntraCloud.Analytics.Proofs.ProfileProofs
import IntraCloud.Statistics.Proofs.PercentilesProofs

/-!
# The figures of a column belong together

Each operation asks a query of its own, and may get the rows in another order. Below the cap all of them see the same
values, so their figures are read off one curve.
-/

namespace Analytics

open Databases Python Relational Statistics

variable {ν K : Type} {src : Source ν (Double K)} {column c : DBColumn} {params name : PyJson}
  {fetched : List (Row ν)}

/-! ## The column that is asked for -/

theorem column_of_asksFor (hparams : AsksFor params column) (hnames : Names src params "column" name c) :
    c ∈ src.columns ∧ c.name = column.name := by
  obtain ⟨hname, hc⟩ := hnames
  obtain ⟨hfield, members, rfl⟩ := hparams
  simp only [subscript, hfield, Except.ok.injEq] at hname
  rw [← hname, columnOf, String.ofList_toList, orRaise_eq_ok, getColumn] at hc
  cases hfind : src.columns.find? fun c => c.name == column.name with
  | none =>
    rw [hfind] at hc
    cases hc
  | some c' =>
    rw [hfind] at hc
    obtain rfl := Except.ok.inj hc
    have hsame := List.find?_some hfind
    exact ⟨List.mem_of_find?_eq_some hfind, by simpa using hsame⟩

theorem valuesOf_congr (h : c.name = column.name) : valuesOf src fetched c = valuesOf src fetched column := by
  rw [valuesOf, valuesOf, h]

theorem numbersOf_congr (h : c.name = column.name) : numbersOf src fetched c = numbersOf src fetched column := by
  rw [numbersOf, numbersOf, valuesOf_congr h]

/-- The numbers of the column in the order of the rows. -/
def sampleOf (src : Source ν (Double K)) (column : DBColumn) : List K :=
  (finites (numbersOf src src.rows column)).getD []

section Figures

variable {E : Environment ν K} (hexact : Exact E src) (hcap : src.rows.length ≤ src.cap)

include hexact hcap

/-- A query for the column returns the numbers of the column in some order. -/
theorem exists_sample (hparams : AsksFor params column) (hnames : Names src params "column" name c)
    (hnumeric : c.dataType ∈ NUMERIC_TYPES) (hfetched : Fetches src.cap src.rows fetched) :
    ∃ zs : List K, numbersOf src fetched c = zs.map .finite ∧ zs.Perm (sampleOf src column) := by
  obtain ⟨hc, hname⟩ := column_of_asksFor hparams hnames
  have hdefined : AllDefined (numbersOf src src.rows c) := by
    intro x hx
    obtain ⟨v, hv, rfl⟩ := List.mem_map.mp hx
    obtain ⟨value, hvalue, hsome⟩ := List.mem_filterMap.mp hv
    obtain ⟨r, hr, rfl⟩ := List.mem_map.mp hvalue
    exact hexact.numbers c hc hnumeric r hr v hsome
  obtain ⟨zs, hzs⟩ := exists_of_allDefined hdefined
  have hsample : sampleOf src column = zs := by
    rw [sampleOf, ← numbersOf_congr hname, hzs, finites_map]
    rfl
  have hperm : (numbersOf src fetched c).Perm (numbersOf src src.rows c) :=
    numbersOf_perm ((fetches_all_iff hcap).mp hfetched)
  rw [hzs] at hperm
  rw [hsample]
  exact exists_map_of_perm hperm

/-! ## Statistics of the numbers -/

variable {op : Operation ν K} {opName label : String} {least : Nat}
  {reducer : Environment ν K → List (Double K) → Double K} {result : Result ν K} {d : Datum ν K}

theorem returns_descriptive (hop : op = descriptiveNumeric opName label least reducer)
    (h : Returns E src column op params result) :
    ∃ zs : List K, zs.Perm (sampleOf src column) ∧ least ≤ zs.length ∧
      result.lookup "value" = some (.number (reducer E (zs.map .finite))) ∧
      result.lookup "sample_size" = some (.count zs.length) := by
  obtain ⟨hparams, q, hq, hresult⟩ := h
  rw [hop] at hresult
  obtain ⟨name, c, hnames, hnumeric, hleast, rfl⟩ := descriptiveNumeric_eq_ok.mp hresult
  obtain ⟨zs, hzs, hperm⟩ := exists_sample hexact hcap hparams hnames hnumeric (hq 0)
  rw [hzs, List.length_map] at hleast
  refine ⟨zs, hperm, hleast, ?_, ?_⟩
  · rw [hzs]
    simp [List.lookup_cons]
  · rw [hzs, List.length_map]
    simp [List.lookup_cons]

/-- The order of the rows does not matter to what is documented of the reducer. -/
theorem reports_value {statistic : List K → K} (hop : op = descriptiveNumeric opName label least reducer)
    (hreducer : ∀ zs : List K, least ≤ zs.length → reducer E (zs.map .finite) = .finite (statistic zs))
    (hstatistic : ∀ zs zs' : List K, zs.Perm zs' → statistic zs = statistic zs')
    (h : Reports E src column op "value" d) :
    least ≤ (sampleOf src column).length ∧ d = .number (.finite (statistic (sampleOf src column))) := by
  obtain ⟨params, result, hreturns, hd⟩ := h
  obtain ⟨zs, hperm, hleast, hvalue, -⟩ := returns_descriptive hexact hcap hop hreturns
  rw [hvalue, hreducer zs hleast, hstatistic zs _ hperm] at hd
  exact ⟨hperm.length_eq ▸ hleast, (Option.some.inj hd).symm⟩

theorem reports_size {size : Nat} (hop : op = descriptiveNumeric opName label least reducer)
    (h : Reports E src column op "sample_size" (.count size)) : size = (sampleOf src column).length := by
  obtain ⟨params, result, hreturns, hd⟩ := h
  obtain ⟨zs, hperm, -, -, hsize⟩ := returns_descriptive hexact hcap hop hreturns
  rw [hsize] at hd
  have hcount := Option.some.inj hd
  simp only [Datum.count, Datum.field.injEq, Field.count.injEq] at hcount
  rw [← hcount, hperm.length_eq]

end Figures

/-! ## Members of a dictionary -/

section Members

variable {α : Type} {member m : List Char × α} {members items : List (List Char × α)}

theorem mem_setMember (h : m ∈ setMember members member) : m ∈ members ∨ m = member := by
  unfold setMember at h
  split at h
  next =>
    obtain ⟨m', hm', rfl⟩ := List.mem_map.mp h
    by_cases hkey : m'.1 = member.1
    · exact .inr (if_pos hkey)
    · rw [if_neg hkey]
      exact .inl hm'
  next =>
    rcases List.mem_append.mp h with hold | hnew
    · exact .inl hold
    · exact .inr (List.mem_singleton.mp hnew)

/-- The new key is there, and no key goes. -/
theorem key_setMember (h : m = member ∨ m ∈ members) : ∃ a, (m.1, a) ∈ setMember members member := by
  unfold setMember
  split
  next hany =>
    by_cases hkey : m.1 = member.1
    · obtain ⟨m', hm', hkey'⟩ := List.any_eq_true.mp hany
      have hkey' : m'.1 = member.1 := by simpa using hkey'
      exact ⟨member.2, List.mem_map.mpr ⟨m', hm', by rw [if_pos hkey', hkey]⟩⟩
    · rcases h with rfl | hold
      · exact absurd rfl hkey
      · exact ⟨m.2, List.mem_map.mpr ⟨m, hold, if_neg hkey⟩⟩
  next =>
    rcases h with rfl | hold
    · exact ⟨m.2, List.mem_append_right _ List.mem_cons_self⟩
    · exact ⟨m.2, List.mem_append_left _ hold⟩

theorem mem_foldl_setMember (h : m ∈ items.foldl setMember members) : m ∈ members ∨ m ∈ items := by
  induction items generalizing members with
  | nil => exact .inl h
  | cons item items ih =>
    rcases ih h with hold | hlater
    · rcases mem_setMember hold with hbefore | rfl
      · exact .inl hbefore
      · exact .inr List.mem_cons_self
    · exact .inr (List.mem_cons_of_mem _ hlater)

theorem key_foldl_setMember (h : m ∈ members ∨ m ∈ items) : ∃ a, (m.1, a) ∈ items.foldl setMember members := by
  induction items generalizing members m with
  | nil =>
    rcases h with hold | hnone
    · exact ⟨m.2, hold⟩
    · cases hnone
  | cons item items ih =>
    rcases h with hold | hitem
    · have hbefore : m = item ∨ m ∈ members := .inr hold
      obtain ⟨a, ha⟩ := key_setMember hbefore
      exact ih (m := (m.1, a)) (.inl ha)
    · rcases List.mem_cons.mp hitem with rfl | hlater
      · have hset : m = m ∨ m ∈ members := .inl rfl
        obtain ⟨a, ha⟩ := key_setMember hset
        exact ih (m := (m.1, a)) (.inl ha)
      · exact ih (.inr hlater)

end Members

/-! ## Percentiles and outliers -/

section Curve

variable [Arithmetic K] {E : Environment ν K} {F : Functions K} (hdocumented : Documented E.toLibraries F)
  (hexact : Exact E src) (hcap : src.rows.length ≤ src.cap) {result : Result ν K}

include hdocumented hexact hcap

theorem returns_percentiles (h : Returns E src column opPercentiles params result) : ∃ items entries,
    (getParam params "percentiles" (.list [.int 25, .int 50, .int 75]) : Except (Raised ν) PyJson) =
      .ok (.list items) ∧ result.lookup "percentiles" = some (.keyed entries) ∧
        OnCurve E (fun p => percentile p (sampleOf src column)) items entries := by
  obtain ⟨hparams, q, hq, hresult⟩ := h
  simp only [opPercentiles, bind_eq_ok, series_eq_ok, orRaise_eq_ok, requireMinN_eq_ok, Prod.exists] at hresult
  obtain ⟨name, hname, _, _, ⟨c, hc, hnumeric, rfl, rfl⟩, _, hleast, percentiles, hpercentiles, hresult⟩ := hresult
  obtain ⟨zs, hzs, hperm⟩ := exists_sample hexact hcap hparams ⟨hname, hc⟩ hnumeric (hq 0)
  rw [hzs, List.length_map] at hleast
  have hne : zs ≠ [] := List.ne_nil_of_length_pos hleast
  cases hitems : percentiles.iterate with
  | none =>
    rw [hitems] at hresult
    cases hresult
  | some items =>
    rw [hitems] at hresult
    dsimp only at hresult
    cases hps : items.mapM (percentile? E) with
    | none =>
      rw [hps] at hresult
      cases hresult
    | some ps =>
      rw [hps] at hresult
      cases percentiles with
      | list items' =>
        obtain rfl : items' = items := Option.some.inj hitems
        obtain rfl := pure_eq_ok.mp hresult
        obtain ⟨hasked, hlisted⟩ := mem_of_mapM_eq_some hps
        refine ⟨items', (ps.map fun p => (p.1, E.percentile (numbersOf src (q 0) c) p.2)).foldl setMember [],
          hpercentiles, ?_, fun entry hentry => ?_, fun item hitem => ?_⟩
        · simp [List.lookup_cons]
        · rcases mem_foldl_setMember hentry with hnone | hmem
          · cases hnone
          · obtain ⟨p, hp, rfl⟩ := List.mem_map.mp hmem
            obtain ⟨item, hitem, heq⟩ := hlisted p hp
            obtain ⟨hlow, hhigh⟩ := percentile?_bounds heq
            refine ⟨item, hitem, p.2, heq, ?_⟩
            dsimp only
            rw [hzs, hdocumented.percentile zs p.2 hne hlow hhigh, percentile_perm hperm]
        · obtain ⟨p, hp, heq⟩ := hasked item hitem
          exact ⟨p.1, p.2, heq, key_foldl_setMember (.inr (List.mem_map_of_mem hp))⟩
      | _ => cases hresult

theorem returns_outliers (h : Returns E src column opOutlierDetection params result) :
    ∃ low high count size sample,
      BeyondFences (fun p => percentile p (sampleOf src column)) result low high count size sample := by
  obtain ⟨hparams, q, hq, hresult⟩ := h
  simp only [opOutlierDetection, bind_eq_ok, pure_eq_ok, series_eq_ok, orRaise_eq_ok, requireMinN_eq_ok, Prod.exists]
    at hresult
  obtain ⟨name, hname, values, truncated, ⟨c, hc, hnumeric, rfl, rfl⟩, _, hleast, rfl⟩ := hresult
  obtain ⟨zs, hzs, hperm⟩ := exists_sample hexact hcap hparams ⟨hname, hc⟩ hnumeric (hq 0)
  rw [hzs, List.length_map] at hleast
  have hne : zs ≠ [] := List.ne_nil_of_length_pos (by omega)
  have hcurve : ∀ p, percentile p (sampleOf src column) = percentile p zs := fun p => (percentile_perm hperm p).symm
  rw [hzs, bounds_map hdocumented hne, outliers_map hdocumented]
  refine ⟨(fences zs).1, (fences zs).2, (zs.filter (outside zs)).length, zs.length, (zs.filter (outside zs)).take 50,
    ?_, ?_, ?_, ?_, ?_, ?_, ?_, ?_, ?_, ?_, ?_⟩
  · simp [List.lookup_cons]
  · simp [List.lookup_cons]
  · simp [List.lookup_cons]
  · simp [List.lookup_cons]
  · simp [List.lookup_cons]
  · rw [hcurve, hcurve]
    rfl
  · rw [hcurve, hcurve]
    rfl
  · rw [hcurve, percentile_fifty hne]
    exact median_between_fences hne
  · exact outliers_le_half hleast
  · rw [List.length_take, Nat.min_comm]
  · intro x hx
    obtain ⟨hmem, hout⟩ := List.mem_filter.mp (List.mem_of_mem_take hx)
    rw [hcurve, hcurve, percentile_zero hne, percentile_hundred hne]
    obtain ⟨hleast, hgreatest⟩ := mem_between hmem
    exact ⟨hleast, hgreatest, by simpa [outside] using hout⟩

end Curve

/-! ## One curve -/

theorem percentile_nil [Arithmetic K] (p : K) : percentile p ([] : List K) = 0 := by
  simp [percentile, nth, sorted]

section Quantiles

variable [Arithmetic K] {E : Environment ν K} {F : Functions K}

/-- Whatever orders the queries of the operations return the rows in, the figures of a column are read off the curve of
its percentiles. -/
theorem descriptives_cohere (hdocumented : Documented E.toLibraries F) (hexact : Exact E src)
    (hcap : src.rows.length ≤ src.cap) (column : DBColumn) :
    Quantiles F E src column fun p => percentile p (sampleOf src column) where
  mono p p' hp hle hp' := by
    by_cases hempty : sampleOf src column = []
    · rw [hempty, percentile_nil, percentile_nil]
    · exact percentile_mono hempty hp hle hp'
  min d h := by
    obtain ⟨hleast, rfl⟩ := reports_value hexact hcap rfl
      (fun zs hzs => hdocumented.min zs (ne_nil_of_one_le hzs)) (fun _ _ => minimum_perm) h
    rw [percentile_zero (ne_nil_of_one_le hleast)]
  median d h := by
    obtain ⟨hleast, rfl⟩ := reports_value hexact hcap rfl
      (fun zs hzs => hdocumented.median zs (ne_nil_of_one_le hzs)) (fun _ _ => median_perm) h
    rw [percentile_fifty (ne_nil_of_one_le hleast)]
  max d h := by
    obtain ⟨hleast, rfl⟩ := reports_value hexact hcap rfl
      (fun zs hzs => hdocumented.max zs (ne_nil_of_one_le hzs)) (fun _ _ => maximum_perm) h
    rw [percentile_hundred (ne_nil_of_one_le hleast)]
  mean d h := by
    obtain ⟨hleast, rfl⟩ := reports_value hexact hcap rfl
      (fun zs hzs => hdocumented.mean zs (ne_nil_of_one_le hzs)) (fun _ _ => mean_perm) h
    have hne := ne_nil_of_one_le hleast
    obtain ⟨hlow, hhigh⟩ := mean_between hne
    refine ⟨mean (sampleOf src column), rfl, ?_, ?_, fun total size htotal hsize => ?_⟩
    · rwa [percentile_zero hne]
    · rwa [percentile_hundred hne]
    · obtain ⟨-, rfl⟩ := reports_value hexact hcap rfl (fun zs _ => hdocumented.sum zs) (fun _ _ h => h.sum_eq) htotal
      have hlength : ((sampleOf src column).length : K) ≠ 0 := (length_pos hne).ne'
      rw [reports_size hexact hcap rfl hsize, mean, div_mul_cancel₀ _ hlength]
  variance d h := by
    obtain ⟨htwo, rfl⟩ := reports_value hexact hcap rfl hdocumented.var (fun _ _ => variance_perm) h
    have hne : sampleOf src column ≠ [] := List.ne_nil_of_length_pos (by omega)
    refine ⟨variance (sampleOf src column), rfl, variance_nonneg htwo, ?_, fun root hroot => ?_⟩
    · rw [percentile_zero hne, percentile_hundred hne, variance_eq_zero_iff htwo, minimum_eq_maximum_iff]
    · exact (reports_value hexact hcap rfl hdocumented.std (fun _ _ h => congrArg F.sqrt (variance_perm h)) hroot).2
  percentiles params result h := returns_percentiles hdocumented hexact hcap h
  outliers params result h := returns_outliers hdocumented hexact hcap h

/-- The prices and the quantities of the sales. -/
theorem descriptives_cohere_sales : Quantiles plainFunctions plainEnvironment sales quantity fun p =>
    percentile p (sampleOf sales quantity) :=
  descriptives_cohere documented_plain exact_sales (by decide) quantity

end Quantiles

end Analytics
