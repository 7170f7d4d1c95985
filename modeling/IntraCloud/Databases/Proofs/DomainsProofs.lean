import IntraCloud.Databases.Domains
import IntraCloud.Databases.Proofs.AgreementProofs
import IntraCloud.Databases.Proofs.DistinctProofs
import IntraCloud.Databases.Proofs.ExplorerProofs
import IntraCloud.Python.Proofs.UuidProofs

/-!
# Which values fit their columns

The converter sees the name of a type only: the ranges of integers, the length of a `VARCHAR`, the digits of a
`NUMERIC`, zero bytes and `NOT NULL` are left to the server.
-/

namespace Databases

open Python Relational Transition

variable {ν : Type} {sv : Server ν} {ten : Tenant} {floatText : List Char → List Char}

/-! ## One value -/

theorem validateDecimal_ok {v : PyJson} {q : QueryParam} (h : validateDecimal floatText v = .ok q) :
    ∃ d, (strText? floatText v).bind parseDecimal? = some d ∧ q = .plain (.decimal d) := by
  unfold validateDecimal at h
  split at h
  · cases h
  · split at h
    · cases h
    · rename_i d hd
      exact ⟨d, hd, (Except.ok.inj h).symm⟩

theorem validateBoolean_ok {v : PyJson} {q : QueryParam} (h : validateBoolean v = .ok q) :
    ∃ b, q = .plain (.bool b) := by
  unfold validateBoolean at h
  split at h
  · exact ⟨_, (Except.ok.inj h).symm⟩
  · dsimp only at h
    split at h
    · exact ⟨_, (Except.ok.inj h).symm⟩
    · cases h
  · cases h

theorem validateDate_ok {v : PyJson} {q : QueryParam} (h : validateDate v = .ok q) :
    ∃ d, q = .plain (.date d) := by
  unfold validateDate at h
  split at h
  · cases h
  · exact ⟨_, (Except.ok.inj h).symm⟩

theorem validateDatetime_ok {v : PyJson} {q : QueryParam} (h : validateDatetime v = .ok q) :
    ∃ d, q = .plain (.datetime d) := by
  unfold validateDatetime at h
  split at h
  · cases h
  · exact ⟨_, (Except.ok.inj h).symm⟩

theorem validateUuid_ok {v : PyJson} {q : QueryParam} (h : validateUuid floatText v = .ok q) :
    ∃ n, q = .plain (.str (uuidText n)) := by
  unfold validateUuid at h
  split at h
  · cases h
  · exact ⟨_, (Except.ok.inj h).symm⟩

theorem validateString_ok {v : PyJson} {q : QueryParam} (h : validateString v = .ok q) :
    ∃ s, v = .str s ∧ q = .plain (.str s) := by
  unfold validateString at h
  split at h
  · cases h
  · rename_i s hs
    refine ⟨s, ?_, (Except.ok.inj h).symm⟩
    cases v with
    | str s' => rw [Option.some.inj hs]
    | _ => cases hs

theorem validateInteger_ok {v : PyJson} {q : QueryParam} (h : validateInteger v = .ok q) :
    ∃ n, v = .int n ∧ q = .plain (.int n) := by
  unfold validateInteger at h
  split at h
  · rename_i n
    exact ⟨n, rfl, (Except.ok.inj h).symm⟩
  · cases h

/-- What the converter makes of a value is in the domain of the column exactly where the value fits. -/
theorem holds_iff_representable (t : DBTable) (c : DBColumn) {v : PyJson} {q : QueryParam}
    (h : validateAndConvert floatText v c.dataType = .ok q) :
    (t.physicalColumn c).holds floatText q = true ↔ Representable floatText c v := by
  unfold validateAndConvert at h
  split at h
  · obtain rfl := Except.ok.inj h
    simp only [PhysicalColumn.holds, DBTable.physicalColumn, Representable, Bool.not_not]
  · rename_i hnull
    unfold Representable PhysicalColumn.holds DBTable.physicalColumn
    cases hT : c.dataType <;> rw [hT] at h <;> simp only [validatePresent] at h
    case integer =>
      obtain ⟨n, rfl, rfl⟩ := validateInteger_ok h
      simp [SqlType.holds, sqlType]
    case bigint =>
      obtain ⟨n, rfl, rfl⟩ := validateInteger_ok h
      simp [SqlType.holds, sqlType]
    case decimal =>
      obtain ⟨d, hd, rfl⟩ := validateDecimal_ok h
      simp only [SqlType.holds, sqlType]
      constructor
      · intro hholds d' hd'
        rw [hd] at hd'
        rwa [← Option.some.inj hd']
      · intro hall
        exact hall d hd
    case text =>
      obtain ⟨s, rfl, rfl⟩ := validateString_ok h
      simp [SqlType.holds, sqlType]
    case varchar =>
      obtain ⟨s, rfl, rfl⟩ := validateString_ok h
      simp [SqlType.holds, sqlType]
    case boolean =>
      obtain ⟨b, rfl⟩ := validateBoolean_ok h
      simp [SqlType.holds, sqlType]
    case date =>
      obtain ⟨d, rfl⟩ := validateDate_ok h
      simp [SqlType.holds, sqlType]
    case datetime =>
      obtain ⟨d, rfl⟩ := validateDatetime_ok h
      simp [SqlType.holds, sqlType]
    case uuid =>
      obtain ⟨n, rfl⟩ := validateUuid_ok h
      simp only [SqlType.holds, sqlType, any_parseUuid?_uuidText]
    case json =>
      obtain rfl := Except.ok.inj h
      simp [SqlType.holds, sqlType]

/-! ## The loop over the values -/

section Loop

variable {columns : List DBColumn} {refused : String → RowError} {members : List (List Char × PyJson)}

theorem not_refused_iff {m : List Char × PyJson} :
    ¬ Refused floatText columns m ↔
      ∃ c q, columns.find? (fun c => c.name.toList == m.1) = some c ∧ c.isPrimaryKey = false ∧
        validateAndConvert floatText m.2 c.dataType = .ok q := by
  unfold Refused
  constructor
  · intro h
    simp only [not_forall, not_or, not_exists, Bool.not_eq_true] at h
    obtain ⟨c, hc, hkey, herror⟩ := h
    cases hvalue : validateAndConvert floatText m.2 c.dataType with
    | error e => exact absurd hvalue (herror e)
    | ok q => exact ⟨c, q, hc, hkey, hvalue⟩
  · rintro ⟨c, q, hc, hkey, hvalue⟩ h
    rcases h c hc with hkey' | ⟨e, herror⟩
    · rw [hkey] at hkey'
      cases hkey'
    · rw [hvalue] at herror
      cases herror

/-- What a member of the object became. -/
def Assigned (floatText : List Char → List Char) (columns : List DBColumn) (m : List Char × PyJson)
    (set : String × QueryParam) : Prop :=
  ∃ c, columns.find? (fun c => c.name.toList == m.1) = some c ∧ c.isPrimaryKey = false ∧ set.1 = c.name ∧
    validateAndConvert floatText m.2 c.dataType = .ok set.2

theorem assignments_ok {sets : List (String × QueryParam)}
    (h : assignments floatText columns refused members = .ok sets) :
    List.Forall₂ (Assigned floatText columns) members sets := by
  induction members generalizing sets with
  | nil =>
    obtain rfl := Except.ok.inj h
    exact .nil
  | cons m members ih =>
    obtain ⟨name, value⟩ := m
    rw [assignments] at h
    split at h
    · cases h
    · rename_i c hc
      split at h
      · cases h
      · rename_i hkey
        split at h
        · cases h
        · rename_i q hq
          cases hrest : assignments floatText columns refused members with
          | error e =>
            rw [hrest] at h
            cases h
          | ok rest =>
            rw [hrest] at h
            obtain rfl := Except.ok.inj h
            exact .cons ⟨c, hc, Bool.eq_false_iff.mpr hkey, rfl, hq⟩ (ih hrest)

theorem exists_assignments_iff (refused : String → RowError) :
    (∃ sets, assignments floatText columns refused members = .ok sets) ↔
      ∀ m ∈ members, ¬ Refused floatText columns m := by
  constructor
  · rintro ⟨sets, h⟩ m hm
    obtain ⟨set, -, c, hc, hkey, -, hvalue⟩ := exists_mem_of_forall₂ (assignments_ok h) hm
    exact not_refused_iff.mpr ⟨c, set.2, hc, hkey, hvalue⟩
  · intro h
    induction members with
    | nil => exact ⟨[], rfl⟩
    | cons m members ih =>
      obtain ⟨hm, hmembers⟩ := List.forall_mem_cons.mp h
      obtain ⟨c, q, hc, hkey, hvalue⟩ := not_refused_iff.mp hm
      obtain ⟨sets, hsets⟩ := ih hmembers
      refine ⟨(c.name, q) :: sets, ?_⟩
      obtain ⟨name, value⟩ := m
      rw [assignments, hc]
      dsimp only
      rw [hkey, if_neg Bool.false_ne_true, hvalue]
      dsimp only
      rw [hsets]
      rfl

theorem missingColumn?_eq {sets : List (String × QueryParam)}
    (h : assignments floatText columns refused members = .ok sets) :
    missingColumn? columns sets = leftOut? columns members := by
  have hnames := assignments_names h
  have hany : ∀ c : DBColumn, (sets.any fun set => set.1 == c.name) = members.any fun m => m.1 == c.name.toList := by
    intro c
    have hmap : (members.map (·.1)).any (fun name => name == c.name.toList) =
        members.any fun m => m.1 == c.name.toList := List.any_map
    have hmap' : (sets.map (·.1.toList)).any (fun name => name == c.name.toList) =
        sets.any fun set => set.1.toList == c.name.toList := List.any_map
    rw [← hmap, ← hnames, hmap']
    refine List.any_congr rfl fun set => ?_
    rw [Bool.eq_iff_iff, beq_iff_eq, beq_iff_eq, String.toList_inj]
  unfold missingColumn? leftOut?
  simp only [hany]

theorem exists_validated_iff (op : RowOp) :
    (∃ sets, op.validated floatText columns members = some sets) ↔ op.Passes floatText columns members := by
  unfold RowOp.Passes
  rw [← exists_assignments_iff op.refusal]
  unfold RowOp.validated
  cases hassign : assignments floatText columns op.refusal members with
  | error e =>
    constructor
    · rintro ⟨sets, hsets⟩
      cases hsets
    · rintro ⟨⟨sets, hsets⟩, -⟩
      cases hsets
  | ok sets =>
    cases op with
    | insert id =>
      dsimp only
      rw [missingColumn?_eq hassign]
      cases leftOut? columns members with
      | none => exact ⟨fun _ => ⟨⟨sets, rfl⟩, rfl⟩, fun _ => ⟨sets, rfl⟩⟩
      | some c =>
        constructor
        · rintro ⟨sets', hsets'⟩
          cases hsets'
        · rintro ⟨-, hnone⟩
          cases hnone
    | update rowId =>
      dsimp only
      cases members with
      | nil =>
        constructor
        · rintro ⟨sets', hsets'⟩
          cases hsets'
        · rintro ⟨-, hne⟩
          exact absurd rfl hne
      | cons m members => exact ⟨fun _ => ⟨⟨sets, rfl⟩, List.cons_ne_nil m members⟩, fun _ => ⟨sets, rfl⟩⟩

theorem validated_some {op : RowOp} {sets : List (String × QueryParam)}
    (h : op.validated floatText columns members = some sets) :
    assignments floatText columns op.refusal members = .ok sets ∧
      ∀ id, op = .insert id → missingColumn? columns sets = none := by
  unfold RowOp.validated at h
  split at h
  · cases h
  · rename_i sets' hassign
    split at h
    · split_ifs at h with hmissing
      obtain rfl := Option.some.inj h
      refine ⟨hassign, fun _ _ => ?_⟩
      rwa [Option.not_isSome_iff_eq_none] at hmissing
    · split_ifs at h
      obtain rfl := Option.some.inj h
      exact ⟨hassign, fun _ hop => by cases hop⟩

end Loop

/-! ## Tables of the services -/

/-- The primary keys are the columns of the name `id`. -/
def Catalog.KeysNamed (cat : Catalog) : Prop :=
  ∀ c ∈ cat.columns, c.isPrimaryKey = true ↔ c.name = "id"

theorem columnDdl_name {t : DBTable} {spec : ColumnSpec} {x : PhysicalColumn}
    (h : columnDdl t spec = .ok x) : spec.name ≠ "id" := by
  intro hname
  unfold columnDdl at h
  have hreserved : validateColumnName spec.name = .error s!"Column name '{spec.name}' is reserved." := by
    rw [hname]
    rfl
  rw [hreserved] at h
  cases h

/-- What holds of the columns that the services make holds of all columns. -/
theorem columns_change {P : DBColumn → Prop} (hkey : ∀ fresh, P (newPrimaryKey fresh))
    (hnew : ∀ fresh t spec x, columnDdl t spec = .ok x → P (newColumn fresh t spec)) {cat cat' : Catalog}
    {fresh : Uuid} (h : ∀ c ∈ cat.columns, P c) (hchange : CatalogChange cat fresh cat') :
    ∀ c ∈ cat'.columns, P c := by
  have hconcat : ∀ {c : DBColumn}, P c → ∀ x ∈ cat.columns ++ [c], P x := by
    intro c hc x hx
    rcases List.mem_append.mp hx with hold | hlast
    · exact h x hold
    · rw [List.mem_singleton.mp hlast]
      exact hc
  have hdelete : ∀ gone, ∀ x ∈ (cat.deleteTables gone).columns, P x :=
    fun gone x hx => h x (List.mem_filter.mp hx).1
  cases hchange with
  | database project name hname hwrite =>
    obtain rfl := insertDatabase_some hwrite
    exact h
  | table d name hd hname hwrite =>
    obtain ⟨-, -, rfl⟩ := insertTable_some hwrite
    exact hconcat (hkey fresh)
  | column t spec x ht hspec hwrite =>
    obtain ⟨-, -, rfl⟩ := insertColumn_some hwrite
    exact hconcat (hnew fresh t spec x hspec)
  | foreignKey c t rt rc onDelete hc ht hct hrt hrc hvalid hwrite =>
    obtain ⟨-, rfl⟩ := insertForeignKey_some hwrite
    exact h
  | deleteTable t => exact hdelete _
  | deleteDatabase d => exact hdelete _

theorem columns_of_run {P : DBColumn → Prop} (hkey : ∀ fresh, P (newPrimaryKey fresh))
    (hnew : ∀ fresh t spec x, columnDdl t spec = .ok x → P (newColumn fresh t spec)) {s : State}
    (hcat : s.catalog = Catalog.empty) (hten : s.tenant = Tenant.empty) (as : List Action) :
    ∀ c ∈ (run step s as).catalog.columns, P c :=
  (catalog_of_run (I := fun cat => ∀ c ∈ cat.columns, P c) (fun _ hc => absurd hc List.not_mem_nil)
    (fun _ h hchange => columns_change hkey hnew h hchange) hcat hten as).2

theorem keysNamed_of_run {s : State} (hcat : s.catalog = Catalog.empty) (hten : s.tenant = Tenant.empty)
    (as : List Action) : (run step s as).catalog.KeysNamed := by
  refine columns_of_run (fun _ => ⟨fun _ => rfl, fun _ => rfl⟩) (fun _ t spec x hspec => ?_) hcat hten as
  constructor
  · intro hkey
    cases hkey
  · intro hid
    exact absurd hid (columnDdl_name hspec)

theorem names_of_run {s : State} (hcat : s.catalog = Catalog.empty) (hten : s.tenant = Tenant.empty)
    (as : List Action) (t : DBTable) : ∀ c ∈ (run step s as).catalog.columnsOf t,
      ∀ c' ∈ (run step s as).catalog.columnsOf t, c.name = c'.name → c = c' := by
  intro c hc c' hc' hname
  have hsound := (catalog_of_run (I := fun _ => True) trivial (fun _ _ _ => trivial) hcat hten as).1
  obtain ⟨hmem, htable⟩ := List.mem_filter.mp hc
  obtain ⟨hmem', htable'⟩ := List.mem_filter.mp hc'
  have hsame : (c.table, c.name) = (c'.table, c'.name) := by
    rw [hname, eq_of_beq htable, eq_of_beq htable']
  exact hsound.wellFormed.columnNames c hmem c' hmem' hsame

/-- What is known of the columns of a table that the services built. -/
structure BuiltColumns (t : DBTable) (columns : List DBColumn) (ten : Tenant) : Prop where
  names : ∀ c ∈ columns, ∀ c' ∈ columns, c.name = c'.name → c = c'
  keys : ∀ c ∈ columns, c.isPrimaryKey = true ↔ c.name = "id"
  physical : ∀ x, x ∈ ten.columnsOf t.physical ↔ ∃ c ∈ columns, t.physicalColumn c = x

/-- The services arrive at this catalog, from two empty databases. -/
theorem builtColumns_of_run {s : State} {as : List Action} (hcat : s.catalog = Catalog.empty)
    (hten : s.tenant = Tenant.empty) {t : DBTable} (hbuilt : AsBuilt (run step s as).catalog t ten) :
    BuiltColumns t ((run step s as).catalog.columnsOf t) ten := by
  have hkeys := keysNamed_of_run hcat hten as
  exact ⟨names_of_run hcat hten as t, fun c hc => hkeys c (List.mem_filter.mp hc).1, hbuilt⟩

/-- As long as every request is permitted, the server has the tables as the services built them. -/
theorem asBuilt_of_permitted {s : State} (hs : Inv s) {t : DBTable} (ht : t ∈ s.catalog.tables) :
    AsBuilt s.catalog t s.tenant := by
  intro x
  have hcolumns : x ∈ s.tenant.columns ↔ x ∈ s.catalog.physicalColumns :=
    ⟨fun hx => hs.agrees.columns.1 x hx, fun hx => hs.agrees.columns.2 x hx⟩
  rw [Tenant.columnsOf, List.mem_filter, hcolumns, mem_physicalColumns, beq_iff_eq]
  constructor
  · rintro ⟨⟨c, hc, t', ht', hid, rfl⟩, hplace⟩
    obtain rfl : t' = t := hs.wellFormed.tableNames t' ht' t ht hplace
    exact ⟨c, List.mem_filter.mpr ⟨hc, beq_iff_eq.mpr hid.symm⟩, rfl⟩
  · rintro ⟨c, hc, rfl⟩
    obtain ⟨hmem, htable⟩ := List.mem_filter.mp hc
    exact ⟨⟨c, hmem, t, ht, (eq_of_beq htable).symm, rfl⟩, rfl⟩

/-! ## The statement -/

section Statement

variable {t : DBTable} {columns : List DBColumn} {members : List (List Char × PyJson)}

theorem BuiltColumns.column?_eq (h : BuiltColumns t columns ten) {c : DBColumn} (hc : c ∈ columns) :
    ten.column? t.physical c.name = some (t.physicalColumn c) := by
  have hmem : t.physicalColumn c ∈ ten.columnsOf t.physical := (h.physical _).mpr ⟨c, hc, rfl⟩
  cases hfind : ten.column? t.physical c.name with
  | none =>
    have hnone := List.find?_eq_none.mp hfind _ hmem
    exact absurd (beq_self_eq_true _) hnone
  | some x =>
    obtain ⟨c', hc', rfl⟩ := (h.physical x).mp (List.mem_of_find?_eq_some hfind)
    have hfound := List.find?_some hfind
    rw [h.names c' hc' c hc (eq_of_beq hfound)]

theorem BuiltColumns.readable (h : BuiltColumns t columns ten) : readable ten t.physical columns = true := by
  refine List.all_eq_true.mpr fun c hc => ?_
  rw [h.column?_eq hc]
  rfl

theorem value_assignAll_isSome {V : ValueType ν} {values : List (PhysicalColumn × Option ν)} {c : String}
    (hid : c ≠ "id") (hsome : ∀ v ∈ values, v.1.name = c → v.2.isSome = true) {r : Row ν}
    (h : c ∈ values.map (·.1.name) ∨ (r.value V c).isSome = true) :
    ((assignAll r values).value V c).isSome = true := by
  induction values generalizing r with
  | nil =>
    rcases h with hmem | hvalue
    · cases hmem
    · exact hvalue
  | cons v values ih =>
    obtain ⟨hv, hvalues⟩ := List.forall_mem_cons.mp hsome
    refine ih hvalues ?_
    rw [value_assign r v.1.name v.2 hid]
    by_cases hc : c = v.1.name
    · rw [if_pos hc]
      exact .inr (hv hc.symm)
    · rw [if_neg hc]
      rcases h with hmem | hvalue
      · exact .inl ((List.mem_cons.mp hmem).resolve_left hc)
      · exact .inr hvalue

/-- What is in the domains is stored, and nothing but NULL as NULL. -/
theorem storeAll_of_holds (hsv : sv.Accepts) {key : TableKey} {sets : List (String × QueryParam)}
    (h : ∀ set ∈ sets, ∃ x, ten.column? key set.1 = some x ∧ x.holds sv.floatText set.2 = true) :
    ∃ values, storeAll sv ten key sets = some values ∧ ∀ v ∈ values, v.1.notNull = true → v.2.isSome = true := by
  induction sets with
  | nil => exact ⟨[], rfl, fun v hv => absurd hv List.not_mem_nil⟩
  | cons set sets ih =>
    obtain ⟨hset, hsets⟩ := List.forall_mem_cons.mp h
    obtain ⟨x, hx, hholds⟩ := hset
    obtain ⟨values, hvalues, hnull⟩ := ih hsets
    obtain ⟨w, hw, hwnull⟩ : ∃ w, sv.store x set.2 = some w ∧ (x.notNull = true → w.isSome = true) := by
      by_cases hnone : set.2 = .plain .none
      · rw [hnone] at hholds ⊢
        refine ⟨none, hsv.null x, fun hnotNull => ?_⟩
        rw [PhysicalColumn.holds, hnotNull] at hholds
        cases hholds
      · have htype : x.type.holds sv.floatText set.2 = true := by
          unfold PhysicalColumn.holds at hholds
          split at hholds
          · rename_i heq
            exact absurd heq hnone
          · exact hholds
        obtain ⟨w, hw⟩ := hsv.holds x set.2 htype
        exact ⟨some w, hw, fun _ => rfl⟩
    refine ⟨(x, w) :: values, ?_, ?_⟩
    · unfold storeAll at hvalues ⊢
      rw [List.mapM_cons, hvalues, hx]
      simp only [bind, Option.bind, hw]
      rfl
    · exact List.forall_mem_cons.mpr ⟨hwnull, hnull⟩

theorem find?_of_mem (h : BuiltColumns t columns ten) {c c' : DBColumn} {name : List Char} (hc : c ∈ columns)
    (hname : c.name.toList = name) (hfind : columns.find? (fun c => c.name.toList == name) = some c') : c = c' := by
  have hfound := List.find?_some hfind
  have hname' : c'.name.toList = name := beq_iff_eq.mp hfound
  exact h.names c hc c' (List.mem_of_find?_eq_some hfind) (String.toList_inj.mp (hname.trans hname'.symm))

/-- The parameters are in their domains exactly where the values fit. -/
theorem sets_hold_iff (h : BuiltColumns t columns ten) {refused : String → RowError}
    {sets : List (String × QueryParam)} (hassign : assignments floatText columns refused members = .ok sets) :
    (∀ set ∈ sets, ∃ x ∈ ten.columnsOf t.physical, x.name = set.1 ∧ x.holds floatText set.2 = true) ↔
      ∀ m ∈ members, ∀ c ∈ columns, c.name.toList = m.1 → Representable floatText c m.2 := by
  have hassigned := assignments_ok hassign
  constructor
  · intro hsets m hm c hc hname
    obtain ⟨set, hset, c', hfind, -, hsetName, hvalue⟩ := exists_mem_of_forall₂ hassigned hm
    obtain rfl := find?_of_mem h hc hname hfind
    obtain ⟨x, hx, hxname, hholds⟩ := hsets set hset
    obtain ⟨c', hc', rfl⟩ := (h.physical x).mp hx
    obtain rfl : c' = c := h.names c' hc' c hc (hxname.trans hsetName)
    exact (holds_iff_representable t c' hvalue).mp hholds
  · intro hmembers set hset
    obtain ⟨m, hm, c, hfind, -, hsetName, hvalue⟩ := exists_mem_of_forall₂ hassigned.flip hset
    have hc := List.mem_of_find?_eq_some hfind
    have hfound := List.find?_some hfind
    have hfits := hmembers m hm c hc (beq_iff_eq.mp hfound)
    exact ⟨t.physicalColumn c, (h.physical _).mpr ⟨c, hc, rfl⟩, hsetName.symm,
      (holds_iff_representable t c hvalue).mpr hfits⟩

theorem duplicates_of_not_fits {V : ValueType ν} {rows : TenantRows ν} {key : TableKey} {row : Row ν}
    {c : PhysicalColumn} (h : fits V rows key row c = false)
    (hnull : c.notNull = true → (row.value V c.name).isSome = true) : Duplicates V rows key row c := by
  unfold fits at h
  cases hvalue : row.value V c.name with
  | none =>
    rw [hvalue] at h hnull
    have hnotNull : c.notNull = true := by
      rw [← Bool.not_eq_false']
      exact h
    cases hnull hnotNull
  | some v =>
    rw [hvalue] at h
    rw [Bool.not_eq_false', Bool.and_eq_true, List.any_eq_true] at h
    obtain ⟨hunique, r, hr, hsame⟩ := h
    rw [Bool.and_eq_true, bne_iff_ne] at hsame
    exact ⟨hunique, v, hvalue, r, hr, hsame.1, hsame.2⟩

/-- A column that is set has a value where it must. -/
theorem isSome_of_set (h : BuiltColumns t columns ten) {values : List (PhysicalColumn × Option ν)}
    (hmem : ∀ v ∈ values, v.1 ∈ ten.columnsOf t.physical)
    (hnull : ∀ v ∈ values, v.1.notNull = true → v.2.isSome = true) {V : ValueType ν} (r : Row ν) {x : PhysicalColumn}
    (hx : x ∈ ten.columnsOf t.physical) (hnotNull : x.notNull = true) (hset : x.name ∈ values.map (·.1.name)) :
    ((assignAll r values).value V x.name).isSome = true := by
  by_cases hid : x.name = "id"
  · rw [hid, value_id]
    rfl
  · refine value_assignAll_isSome hid (fun v hv hname => hnull v hv ?_) (.inl hset)
    obtain ⟨c, hc, hxc⟩ := (h.physical x).mp hx
    obtain ⟨c', hc', hvc⟩ := (h.physical v.1).mp (hmem v hv)
    have hsame : c'.name = c.name := by
      rw [← hxc, ← hvc] at hname
      exact hname
    rw [← hvc, h.names c' hc' c hc hsame, hxc]
    exact hnotNull

theorem insert_conflicts (h : BuiltColumns t columns ten) (hsv : sv.Accepts) {rows : TenantRows ν} {id : Uuid}
    {sets : List (String × QueryParam)} (hassign : assignments sv.floatText columns .generatedColumn members = .ok sets)
    (hmissing : missingColumn? columns sets = none)
    (hholds : ∀ set ∈ sets, ∃ x, ten.column? t.physical set.1 = some x ∧ x.holds sv.floatText set.2 = true)
    (hfails : (insertRow sv ten t.physical columns rows (.fields members) id).2 = .error .serverError) :
    (RowOp.insert id).Conflicts sv ten t.physical rows sets := by
  obtain ⟨values, hvalues, hnull⟩ := storeAll_of_holds hsv hholds
  refine ⟨values, hvalues, ?_⟩
  dsimp only
  unfold insertRow at hfails
  simp only [hassign, hmissing, hvalues, h.readable, Bool.true_and] at hfails
  by_contra hnone
  obtain ⟨hid, hnone⟩ := not_or.mp hnone
  obtain ⟨hunique, hsound⟩ := not_or.mp hnone
  have hfresh : (rows.ofTable t.physical).any (fun r => r.id == id) = false := by
    rw [List.any_eq_false]
    intro r hr heq
    exact hid ⟨r, hr, eq_of_beq heq⟩
  have hfits : (ten.columnsOf t.physical).all
      (fits sv.toValueType rows t.physical (newRow sv ten t.physical id values)) = true := by
    refine List.all_eq_true.mpr fun x hx => ?_
    by_contra hnot
    refine hunique ⟨x, hx, duplicates_of_not_fits (Bool.eq_false_iff.mpr hnot) fun hnotNull => ?_⟩
    obtain ⟨c, hc, rfl⟩ := (h.physical x).mp hx
    by_cases hkey : c.isPrimaryKey = true
    · have hcid : (t.physicalColumn c).name = "id" := (h.keys c hc).mp hkey
      rw [hcid, value_id]
      rfl
    · refine isSome_of_set h (storeAll_mem hvalues) hnull _ hx hnotNull ?_
      have hnullable : c.isNullable = false := by
        rw [← Bool.not_eq_true']
        exact hnotNull
      have hsorted : c ∈ columns.insertionSort fun c c' => c.name ≤ c'.name :=
        (List.perm_insertionSort _ columns).mem_iff.mpr hc
      have hnone := List.find?_eq_none.mp hmissing c hsorted
      rw [Bool.eq_false_iff.mpr hkey, hnullable, Bool.not_false, Bool.true_and, Bool.true_and,
        Bool.not_eq_true', Bool.not_eq_false, List.any_eq_true] at hnone
      obtain ⟨set, hset, hname⟩ := hnone
      rw [storeAll_names hvalues]
      exact List.mem_map.mpr ⟨set, hset, eq_of_beq hname⟩
  have hafter : RowWrite.perform sv.toValueType ten.keys rows
      (.insert t.physical (newRow sv ten t.physical id values)) =
        rows ++ [(t.physical, newRow sv ten t.physical id values)] := rfl
  rw [hfresh, hfits, hafter, decide_eq_true (not_not.mp hsound)] at hfails
  cases hfails

theorem update_conflicts (h : BuiltColumns t columns ten) (hsv : sv.Accepts) {rows : TenantRows ν} {rowId : Uuid}
    {sets : List (String × QueryParam)}
    (hassign : assignments sv.floatText columns .unmodifiableColumn members = .ok sets)
    (hholds : ∀ set ∈ sets, ∃ x, ten.column? t.physical set.1 = some x ∧ x.holds sv.floatText set.2 = true)
    (hfails : (updateRow sv ten t.physical columns rows rowId (.fields members)).2 = .error .serverError) :
    (RowOp.update rowId).Conflicts sv ten t.physical rows sets := by
  obtain ⟨values, hvalues, hnull⟩ := storeAll_of_holds hsv hholds
  refine ⟨values, hvalues, ?_⟩
  cases members with
  | nil => cases hfails
  | cons m members =>
    unfold updateRow at hfails
    simp only [hassign, hvalues, h.readable, Bool.not_true, Bool.false_eq_true, if_false] at hfails
    cases hfind : (rows.ofTable t.physical).find? (fun r => r.id == rowId) with
    | none =>
      rw [hfind] at hfails
      cases hfails
    | some old =>
      rw [hfind] at hfails
      have hfound := List.find?_some hfind
      refine ⟨old, List.mem_of_find?_eq_some hfind, eq_of_beq hfound, ?_⟩
      by_contra hnone
      obtain ⟨hunique, hsound⟩ := not_or.mp hnone
      have hfits : values.all (fun v => fits sv.toValueType rows t.physical (assignAll old values) v.1) = true := by
        refine List.all_eq_true.mpr fun v hv => ?_
        by_contra hnot
        refine hunique ⟨v, hv, duplicates_of_not_fits (Bool.eq_false_iff.mpr hnot) fun hnotNull => ?_⟩
        have hmem := storeAll_mem hvalues
        exact isSome_of_set h hmem hnull old (hmem v hv) hnotNull (List.mem_map_of_mem hv)
      dsimp only at hfails
      rw [hfits, decide_eq_true (not_not.mp hsound)] at hfails
      cases hfails

end Statement

theorem assignments_ne_required {columns : List DBColumn} {members : List (List Char × PyJson)} {name : String} :
    assignments floatText columns .generatedColumn members ≠ .error (.requiredColumn name) := by
  intro h
  induction members with
  | nil => cases h
  | cons m members ih =>
    obtain ⟨key, value⟩ := m
    rw [assignments] at h
    split at h
    · cases h
    · split at h
      · cases h
      · split at h
        · cases h
        · cases hrest : assignments floatText columns .generatedColumn members with
          | error e =>
            rw [hrest] at h
            exact ih (hrest.trans h)
          | ok sets =>
            rw [hrest] at h
            cases h

/-- What `insert_row` calls required is the first column that is left out, of an object that passes the loop. -/
theorem insertRow_required_iff {key : TableKey} {columns : List DBColumn} {rows : TenantRows ν}
    {members : List (List Char × PyJson)} {id : Uuid} {name : String} :
    (insertRow sv ten key columns rows (.fields members) id).2 = .error (.invalid (.requiredColumn name)) ↔
      (∀ m ∈ members, ¬ Refused sv.floatText columns m) ∧ ∃ c, leftOut? columns members = some c ∧ c.name = name := by
  rw [← exists_assignments_iff .generatedColumn]
  unfold insertRow
  dsimp only
  cases hassign : assignments sv.floatText columns .generatedColumn members with
  | error e =>
    constructor
    · intro h
      obtain rfl := RowFailure.invalid.inj (Except.error.inj h)
      exact absurd hassign assignments_ne_required
    · rintro ⟨⟨sets, hsets⟩, -⟩
      cases hsets
  | ok sets =>
    dsimp only
    rw [missingColumn?_eq hassign]
    cases leftOut? columns members with
    | some c =>
      constructor
      · intro h
        exact ⟨⟨sets, rfl⟩, c, rfl, RowError.requiredColumn.inj (RowFailure.invalid.inj (Except.error.inj h))⟩
      · rintro ⟨-, c', hc', rfl⟩
        rw [Option.some.inj hc']
    | none =>
      constructor
      · intro h
        dsimp only at h
        split at h
        · cases h
        · split_ifs at h
          cases h
      · rintro ⟨-, c, hc, -⟩
        cases hc

theorem default_absent_iff (t : DBTable) {c : DBColumn} (hkey : c.isPrimaryKey = false) :
    (t.physicalColumn c).default = .absent ↔ c.defaultValue = none := by
  have hdefault : (t.physicalColumn c).default = defaultClause c.dataType c.defaultValue := by
    rw [DBTable.physicalColumn, hkey]
    rfl
  rw [hdefault]
  cases c.defaultValue with
  | none => exact ⟨fun _ => rfl, fun _ => rfl⟩
  | some v =>
    constructor
    · intro h
      cases hT : c.dataType <;> rw [hT] at h <;> cases h
    · intro h
      cases h

theorem leftOut?_some {columns : List DBColumn} {members : List (List Char × PyJson)} {c : DBColumn}
    (h : leftOut? columns members = some c) :
    c ∈ columns ∧ c.isPrimaryKey = false ∧ c.isNullable = false ∧ c.name.toList ∉ members.map (·.1) := by
  have hmem := (List.perm_insertionSort _ columns).mem_iff.mp (List.mem_of_find?_eq_some h)
  have hfound := List.find?_some h
  simp only [Bool.and_eq_true, Bool.not_eq_true', List.any_eq_false, beq_iff_eq] at hfound
  obtain ⟨⟨hkey, hnullable⟩, hmembers⟩ := hfound
  refine ⟨hmem, hkey, hnullable, fun hname => ?_⟩
  obtain ⟨m, hm, hname⟩ := List.mem_map.mp hname
  exact hmembers m hm hname

/-- `insert_row` calls only columns required that have no default, exactly where it refuses a value of the object
before, or the first required column that is left out has none. -/
theorem requiredExact_iff (s : State) (as : List Action) (hcat : s.catalog = Catalog.empty)
    (hten : s.tenant = Tenant.empty) (t : DBTable) (ten : Tenant)
    (hbuilt : AsBuilt (run step s as).catalog t ten) (sv : Server ν) (rows : TenantRows ν)
    (members : List (List Char × PyJson)) (id : Uuid) :
    RequiredExact sv ten t.physical ((run step s as).catalog.columnsOf t) rows members id ↔
      ((∀ m ∈ members, ¬ Refused sv.floatText ((run step s as).catalog.columnsOf t) m) →
        ∀ c, leftOut? ((run step s as).catalog.columnsOf t) members = some c → c.defaultValue = none) := by
  have h := builtColumns_of_run hcat hten hbuilt
  constructor
  · intro hexact hpasses c hleft
    obtain ⟨hc, hkey, -, -⟩ := leftOut?_some hleft
    obtain ⟨x, hx, hname, -, habsent, -⟩ := hexact c.name (insertRow_required_iff.mpr ⟨hpasses, c, hleft, rfl⟩)
    obtain ⟨c', hc', rfl⟩ := (h.physical x).mp hx
    obtain rfl : c' = c := h.names c' hc' c hc hname
    exact (default_absent_iff t hkey).mp habsent
  · intro hdefaults name hrequired
    obtain ⟨hpasses, c, hleft, rfl⟩ := insertRow_required_iff.mp hrequired
    obtain ⟨hc, hkey, hnullable, hmembers⟩ := leftOut?_some hleft
    refine ⟨t.physicalColumn c, (h.physical _).mpr ⟨c, hc, rfl⟩, rfl, ?_, ?_, hmembers⟩
    · show (!c.isNullable) = true
      rw [hnullable]
      rfl
    · exact (default_absent_iff t hkey).mpr (hdefaults hpasses c hleft)

/-! ## A table of people -/

/-- The table 102, with a required age, and with a flag that is set by default. -/
def peopleTable : List Action :=
  [ask (.createTenantDatabase 5 "crm"), ask (.createTable 100 "people"),
    ask (.addColumn 102 { name := "age", dataType := .integer, isNullable := false }),
    ask (.addColumn 102
      { name := "active", dataType := .boolean, isNullable := false, defaultValue := some (.bool true) })]

def peopleRow : DBTable := { id := 102, tenantDatabase := 100, name := "people" }

/-- A server that holds parameters as they are sent. -/
def domainServer : Server QueryParam where
  uuid n := .plain (.str (uuidText n))
  same
    | .plain (.int m), .plain (.int n) => m == n
    | .plain (.bool a), .plain (.bool b) => a == b
    | .plain (.str s), .plain (.str t) => s == t
    | _, _ => false
  text
    | .plain (.int n) => intText n
    | .plain (.bool b) => if b then "True".toList else "False".toList
    | .plain (.str s) => s
    | _ => []
  store c q :=
    match q with
    | .plain .none => some none
    | q => if c.type.holds id q then some (some q) else none
  default c :=
    match c.default with
    | .literal (.bool b) => some (.plain (.bool b))
    | _ => none
  equals _ _ := none
  ilike _ _ := false
  before _ _ := true
  floatText := id

theorem not_holds_none (T : SqlType) : T.holds id (.plain .none) = false := by cases T <;> rfl

theorem domainServer_store (c : PhysicalColumn) {q : QueryParam} (hq : q ≠ .plain .none) :
    domainServer.store c q = if c.type.holds id q then some (some q) else none := by
  cases q with
  | jsonb v => rfl
  | plain p =>
    cases p with
    | none => exact absurd rfl hq
    | int n => rfl
    | decimal d => rfl
    | bool b => rfl
    | date d => rfl
    | datetime d => rfl
    | str s => rfl
    | json v => rfl

theorem domainServer_accepts : domainServer.Accepts := by
  refine ⟨fun _ => rfl, fun c q h => ⟨q, ?_⟩⟩
  have hq : q ≠ .plain .none := by
    rintro rfl
    rw [show domainServer.floatText = id from rfl, not_holds_none] at h
    cases h
  rw [domainServer_store c hq]
  exact if_pos h

theorem asBuilt_people : AsBuilt (run step emptyProject peopleTable).catalog peopleRow
    (run step emptyProject peopleTable).tenant := by
  have heq : (run step emptyProject peopleTable).tenant.columnsOf peopleRow.physical =
      ((run step emptyProject peopleTable).catalog.columnsOf peopleRow).map peopleRow.physicalColumn := by
    decide
  intro x
  rw [heq, List.mem_map]

/-- The flag is left out, and has a default. -/
theorem requiredExact_iff_people :
    RequiredExact domainServer (run step emptyProject peopleTable).tenant peopleRow.physical
        ((run step emptyProject peopleTable).catalog.columnsOf peopleRow) [] [("active".toList, .bool true)] 7 ↔
      ((∀ m ∈ [("active".toList, PyJson.bool true)],
          ¬ Refused id ((run step emptyProject peopleTable).catalog.columnsOf peopleRow) m) →
        ∀ c, leftOut? ((run step emptyProject peopleTable).catalog.columnsOf peopleRow)
          [("active".toList, .bool true)] = some c → c.defaultValue = none) :=
  requiredExact_iff emptyProject peopleTable rfl rfl peopleRow _ asBuilt_people domainServer [] _ 7

/-- The flag is left out and called required, though the server has `true` for it. -/
theorem not_requiredExact_of_default :
    AsBuilt (run step emptyProject peopleTable).catalog peopleRow (run step emptyProject peopleTable).tenant ∧
      ¬ RequiredExact domainServer (run step emptyProject peopleTable).tenant peopleRow.physical
        ((run step emptyProject peopleTable).catalog.columnsOf peopleRow) [] [("age".toList, .int 5)] 7 := by
  refine ⟨asBuilt_people, fun hexact => ?_⟩
  have hrequired : (insertRow domainServer (run step emptyProject peopleTable).tenant peopleRow.physical
      ((run step emptyProject peopleTable).catalog.columnsOf peopleRow) [] (.fields [("age".toList, .int 5)]) 7).2 =
        .error (.invalid (.requiredColumn "active")) := rfl
  have hdefault : ∀ x ∈ (run step emptyProject peopleTable).tenant.columnsOf peopleRow.physical,
      x.name = "active" → x.default ≠ .absent := by decide
  obtain ⟨x, hx, hname, -, habsent, -⟩ := hexact "active" hrequired
  exact hdefault x hx hname habsent

end Databases
