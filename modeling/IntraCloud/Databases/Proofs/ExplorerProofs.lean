import IntraCloud.Databases.Explorer
import IntraCloud.Relational.References

/-!
# Statements on rows that differ in some cells

An insert, an update and a delete go through or fail whatever stands in the cells that no constraint sees,
and leave rows that differ in such cells only. What an insert returns it has written itself; what an update
returns, it has not.
-/

namespace Databases

open Python Relational

variable {ν : Type} {V : ValueType ν} {sv : Server ν} {ten : Tenant} {database : Uuid} {t : TableKey}
  {columns : List DBColumn} {rows rows' : TenantRows ν}

/-! ## Assignments -/

theorem value_id (r : Row ν) : r.value V "id" = some (V.uuid r.id) := if_pos rfl

/-- The value of a column, when the cells of some columns are taken out. -/
theorem find?_filter_cells (kept : String → Bool) (cells : List (String × ν)) (c : String) :
    (cells.filter fun cell => kept cell.1).find? (fun cell => cell.1 == c) =
      if kept c then cells.find? (fun cell => cell.1 == c) else none := by
  induction cells with
  | nil => rw [List.filter_nil, List.find?_nil, ite_self]
  | cons cell cells ih =>
    have hcons : (cell :: cells).find? (fun cell => cell.1 == c) =
        if cell.1 = c then some cell else cells.find? fun cell => cell.1 == c := by
      rw [List.find?_cons]
      by_cases hcell : cell.1 = c
      · rw [if_pos hcell, beq_iff_eq.mpr hcell]
      · rw [if_neg hcell, beq_false_of_ne hcell]
    by_cases hkept : kept cell.1 = true
    · rw [List.filter_cons, if_pos hkept, List.find?_cons, hcons]
      by_cases hcell : cell.1 = c
      · rw [beq_iff_eq.mpr hcell, if_pos hcell, if_pos (hcell ▸ hkept)]
      · rw [beq_false_of_ne hcell, if_neg hcell]
        exact ih
    · rw [List.filter_cons, if_neg hkept, ih, hcons]
      by_cases hcell : cell.1 = c
      · rw [if_neg (hcell ▸ hkept), if_neg (hcell ▸ hkept)]
      · rw [if_neg hcell]

theorem value_assign (r : Row ν) (column : String) (v : Option ν) {c : String} (hid : c ≠ "id") :
    (r.assign column v).value V c = if c = column then v else r.value V c := by
  have hold := find?_filter_cells (fun name => name != column) r.cells c
  rw [Row.value, if_neg hid, Row.assign, List.find?_append, hold]
  by_cases hc : c = column
  · subst hc
    rw [if_pos rfl, if_neg (by simp), Option.none_or]
    cases v with
    | none => rfl
    | some v => simp
  · have hnew : (v.toList.map fun v => (column, v)).find? (fun cell => cell.1 == c) = none := by
      refine List.find?_eq_none.mpr fun cell hcell => ?_
      obtain ⟨_, _, rfl⟩ := List.mem_map.mp hcell
      simpa using Ne.symm hc
    rw [hnew, Option.or_none, if_neg hc, if_pos (by simpa using hc), Row.value, if_neg hid]

/-- An assignment leaves rows alike that were alike. -/
theorem AlikeCells.assign {r r' : Row ν} (h : AlikeCells V ten database (t, r) (t, r')) (column : String)
    (v : Option ν) : AlikeCells V ten database (t, r.assign column v) (t, r'.assign column v) := by
  refine ⟨rfl, h.id, fun hother => ?_, fun c hc => ?_⟩
  · have heq : r = r' := h.outside hother
    show r.assign column v = r'.assign column v
    rw [heq]
  · show (r.assign column v).value V c = (r'.assign column v).value V c
    have hvalue : r.value V c = r'.value V c := h.constrained c hc
    by_cases hid : c = "id"
    · have heq : r.id = r'.id := h.id
      rw [hid, value_id, value_id]
      exact congrArg (fun id => some (V.uuid id)) heq
    · rw [value_assign _ _ _ hid, value_assign _ _ _ hid, hvalue]

theorem assignAll_id (r : Row ν) (values : List (PhysicalColumn × Option ν)) :
    (assignAll r values).id = r.id := by
  induction values generalizing r with
  | nil => rfl
  | cons v values ih => exact ih (r.assign v.1.name v.2)

theorem AlikeCells.assignAll {r r' : Row ν} (h : AlikeCells V ten database (t, r) (t, r'))
    (values : List (PhysicalColumn × Option ν)) :
    AlikeCells V ten database (t, Databases.assignAll r values) (t, Databases.assignAll r' values) := by
  induction values generalizing r r' with
  | nil => exact h
  | cons v values ih => exact ih (h.assign v.1.name v.2)

/-- A column that is set holds the same afterwards, whatever it held before. -/
theorem assignAll_value {r r' : Row ν} (hrow : r.id = r'.id) {c : String}
    {values : List (PhysicalColumn × Option ν)}
    (h : c ∈ values.map (·.1.name) ∨ r.value V c = r'.value V c) :
    (assignAll r values).value V c = (assignAll r' values).value V c := by
  by_cases hid : c = "id"
  · rw [hid, value_id, value_id, assignAll_id, assignAll_id, hrow]
  · induction values generalizing r r' with
    | nil =>
      obtain h | h := h
      · exact absurd h List.not_mem_nil
      · exact h
    | cons v values ih =>
      have hassigned : c ∈ values.map (·.1.name) ∨
          (r.assign v.1.name v.2).value V c = (r'.assign v.1.name v.2).value V c := by
        rw [value_assign _ _ _ hid, value_assign _ _ _ hid]
        by_cases hc : c = v.1.name
        · rw [if_pos hc, if_pos hc]
          exact .inr rfl
        · rw [if_neg hc, if_neg hc]
          obtain h | h := h
          · rw [List.map_cons, List.mem_cons] at h
            exact .inl (h.resolve_left hc)
          · exact .inr h
      have hid' : (r.assign v.1.name v.2).id = (r'.assign v.1.name v.2).id := hrow
      exact ih hid' hassigned

/-- The parameters are those of the members. -/
theorem assignments_names {floatText : List Char → List Char} {refused : String → RowError}
    {members : List (List Char × PyJson)} {sets : List (String × QueryParam)}
    (h : assignments floatText columns refused members = .ok sets) :
    sets.map (·.1.toList) = members.map (·.1) := by
  induction members generalizing sets with
  | nil =>
    cases h
    rfl
  | cons member members ih =>
    obtain ⟨name, value⟩ := member
    rw [assignments] at h
    cases hfind : columns.find? fun c => c.name.toList == name with
    | none =>
      rw [hfind] at h
      cases h
    | some c =>
      have hfound := List.find?_some hfind
      have hname : c.name.toList = name := beq_iff_eq.mp hfound
      simp only [hfind] at h
      split at h
      · cases h
      · split at h
        · cases h
        · cases hrest : assignments floatText columns refused members with
          | error e =>
            rw [hrest] at h
            cases h
          | ok rest =>
            rw [hrest] at h
            cases h
            rw [List.map_cons, List.map_cons, ih hrest, hname]

theorem storeAll_names {sets : List (String × QueryParam)} {values : List (PhysicalColumn × Option ν)}
    (h : storeAll sv ten t sets = some values) : values.map (·.1.name) = sets.map (·.1) := by
  induction sets generalizing values with
  | nil =>
    cases h
    rfl
  | cons set sets ih =>
    rw [storeAll, List.mapM_cons] at h
    obtain ⟨value, hvalue, h⟩ := Option.bind_eq_some_iff.mp h
    obtain ⟨rest, hrest, h⟩ := Option.bind_eq_some_iff.mp h
    obtain ⟨c, hc, hvalue⟩ := Option.bind_eq_some_iff.mp hvalue
    obtain ⟨v, hv, hvalue⟩ := Option.bind_eq_some_iff.mp hvalue
    cases hvalue
    cases h
    have hfound := List.find?_some hc
    have hname : c.name = set.1 := beq_iff_eq.mp hfound
    rw [List.map_cons, List.map_cons, ih hrest, hname]

/-- Only columns of the table are set. -/
theorem storeAll_mem {sets : List (String × QueryParam)} {values : List (PhysicalColumn × Option ν)}
    (h : storeAll sv ten t sets = some values) : ∀ v ∈ values, v.1 ∈ ten.columnsOf t := by
  induction sets generalizing values with
  | nil =>
    cases h
    exact fun v hv => absurd hv List.not_mem_nil
  | cons set sets ih =>
    rw [storeAll, List.mapM_cons] at h
    obtain ⟨value, hvalue, h⟩ := Option.bind_eq_some_iff.mp h
    obtain ⟨rest, hrest, h⟩ := Option.bind_eq_some_iff.mp h
    obtain ⟨c, hc, hvalue⟩ := Option.bind_eq_some_iff.mp hvalue
    obtain ⟨v, hv, hvalue⟩ := Option.bind_eq_some_iff.mp hvalue
    cases hvalue
    cases h
    rintro x hx
    obtain rfl | hx := List.mem_cons.mp hx
    · exact List.mem_of_find?_eq_some hc
    · exact ih hrest x hx

/-! ## Tables -/

/-- The rows of a table are alike, one by one. -/
theorem ofTable_alike (h : List.Forall₂ (AlikeCells V ten database) rows rows') (t : TableKey) :
    List.Forall₂ (fun r r' => AlikeCells V ten database (t, r) (t, r')) (rows.ofTable t) (rows'.ofTable t) := by
  unfold TenantRows.ofTable
  induction h with
  | nil => exact .nil
  | @cons x y xs ys hxy _ ih =>
    obtain ⟨k, r⟩ := x
    obtain ⟨k', r'⟩ := y
    obtain rfl : k = k' := hxy.table
    by_cases hk : k = t
    · subst hk
      simp only [List.filter_cons, beq_self_eq_true, if_true, List.map_cons]
      exact .cons hxy ih
    · simp only [List.filter_cons, beq_false_of_ne hk, Bool.false_eq_true, if_false]
      exact ih

/-- The tables of the other databases are the same. -/
theorem ofTable_eq (h : List.Forall₂ (AlikeCells V ten database) rows rows') (hother : t.1.database ≠ database) :
    rows.ofTable t = rows'.ofTable t := by
  have heq := map_eq_of_forall₂ (ofTable_alike h t) fun r r' hr => show id r = id r' from hr.outside hother
  rwa [List.map_id, List.map_id] at heq

theorem constrained_unique {c : PhysicalColumn} (hc : c ∈ ten.columnsOf t) (h : c.unique = true) :
    ten.constrained t c.name = true := by
  have hany : (ten.columnsOf t).any (fun x => x.name == c.name && x.unique) = true := by
    refine List.any_eq_true.mpr ⟨c, hc, ?_⟩
    rw [beq_self_eq_true, h]
    rfl
  rw [Tenant.constrained, hany, Bool.or_true, Bool.true_or]

theorem constrained_column {key : TenantKey} (hkey : key ∈ ten.keys) :
    ten.constrained key.table key.column = true := by
  have hany : ten.keys.any (fun k => (k.table == key.table && k.column == key.column) ||
      (k.refTable == key.table && k.refColumn == key.column)) = true :=
    List.any_eq_true.mpr ⟨key, hkey, by simp⟩
  rw [Tenant.constrained, hany, Bool.or_true]

theorem constrained_refColumn {key : TenantKey} (hkey : key ∈ ten.keys) :
    ten.constrained key.refTable key.refColumn = true := by
  have hany : ten.keys.any (fun k => (k.table == key.refTable && k.column == key.refColumn) ||
      (k.refTable == key.refTable && k.refColumn == key.refColumn)) = true :=
    List.any_eq_true.mpr ⟨key, hkey, by simp⟩
  rw [Tenant.constrained, hany, Bool.or_true]

/-- A constrained column of a table holds the same, row by row. -/
theorem values_alike (h : List.Forall₂ (AlikeCells V ten database) rows rows') {c : String}
    (hc : ten.constrained t c = true) :
    List.Forall₂ (fun r r' => r.value V c = r'.value V c) (rows.ofTable t) (rows'.ofTable t) :=
  (ofTable_alike h t).imp fun _ _ hr => hr.constrained c hc

/-! ## Constraints -/

theorem sound_iff (h : List.Forall₂ (AlikeCells V ten database) rows rows') :
    rows.Sound V ten.keys ↔ rows'.Sound V ten.keys := by
  refine Values.closed_iff fun fk hfk => ?_
  obtain ⟨key, hkey, rfl⟩ := List.mem_map.mp hfk
  exact ⟨values_alike h (constrained_column hkey), values_alike h (constrained_refColumn hkey)⟩

theorem decide_sound_eq (h : List.Forall₂ (AlikeCells V ten database) rows rows') :
    decide (rows.Sound V ten.keys) = decide (rows'.Sound V ten.keys) :=
  decide_eq_decide.mpr (sound_iff h)

theorem fits_alike (h : List.Forall₂ (AlikeCells V ten database) rows rows') {r r' : Row ν} (hid : r.id = r'.id)
    {c : PhysicalColumn} (hc : c ∈ ten.columnsOf t) (hvalue : r.value V c.name = r'.value V c.name) :
    fits V rows t r c = fits V rows' t r' c := by
  unfold fits
  rw [hvalue]
  cases r'.value V c.name with
  | none => rfl
  | some v =>
    by_cases hunique : c.unique = true
    · have hany := any_eq_of_forall₂ (ofTable_alike h t)
        (p := fun x => x.id != r.id && (x.value V c.name).any (V.same v))
        (q := fun x => x.id != r'.id && (x.value V c.name).any (V.same v)) fun x x' hx => by
          have hxid : x.id = x'.id := hx.id
          have hxvalue : x.value V c.name = x'.value V c.name :=
            hx.constrained c.name (constrained_unique hc hunique)
          simp only [hxid, hid, hxvalue]
      simp only [hany]
    · simp only [Bool.eq_false_of_not_eq_true hunique, Bool.false_and]

theorem nullsFit_eq (h : List.Forall₂ (AlikeCells V ten database) rows rows') :
    nullsFit V ten rows = nullsFit V ten rows' := by
  have hkeys : List.Forall₂ (fun key key' => key = key' ∧ key ∈ ten.keys) ten.keys ten.keys :=
    List.forall₂_same.mpr fun key hkey => ⟨rfl, hkey⟩
  refine all_eq_of_forall₂ hkeys ?_
  rintro key _ ⟨rfl, hkey⟩
  rw [all_eq_of_forall₂ (values_alike h (constrained_column hkey)) fun r r' hr => congrArg Option.isSome hr]

/-! ## Deletes -/

theorem storedKey_eq {x y : TableKey × Row ν} (h : AlikeCells V ten database x y) : storedKey x = storedKey y :=
  Prod.ext h.table h.id

/-- Whether a row refers to one that goes is a matter of constrained columns. -/
theorem refersTo_eq (h : List.Forall₂ (AlikeCells V ten database) rows rows') {gone : List (TableKey × Uuid)}
    {key : TenantKey} (hkey : key ∈ ten.keys) {x y : TableKey × Row ν} (hxy : AlikeCells V ten database x y) :
    refersTo V rows gone key x = refersTo V rows' gone key y := by
  unfold refersTo
  rw [← hxy.table]
  by_cases hx : x.1 = key.table
  · have hcolumn : x.2.value V key.column = y.2.value V key.column :=
      hxy.constrained _ (hx ▸ constrained_column hkey)
    rw [beq_iff_eq.mpr hx, Bool.true_and, Bool.true_and]
    refine any_eq_of_forall₂ h fun target target' htarget => ?_
    rw [storedKey_eq htarget, ← htarget.table]
    by_cases ht : target.1 = key.refTable
    · have hrefColumn : target.2.value V key.refColumn = target'.2.value V key.refColumn :=
        htarget.constrained _ (ht ▸ constrained_refColumn hkey)
      have hrefers : V.values.refers key.toForeignKey x.2 target.2 =
          V.values.refers key.toForeignKey y.2 target'.2 := Values.refers_eq hcolumn hrefColumn
      rw [hrefers]
    · rw [beq_false_of_ne ht, Bool.and_false, Bool.false_and, Bool.false_and]
  · rw [beq_false_of_ne hx, Bool.false_and, Bool.false_and]

/-- The keys that lead to rows that go with others lead to the same ones. -/
theorem anyKey_eq (h : List.Forall₂ (AlikeCells V ten database) rows rows') {gone : List (TableKey × Uuid)}
    (p : TenantKey → Bool) {x y : TableKey × Row ν} (hxy : AlikeCells V ten database x y) :
    (ten.keys.any fun key => p key && refersTo V rows gone key x) =
      ten.keys.any fun key => p key && refersTo V rows' gone key y := by
  have hkeys : List.Forall₂ (fun key key' => key = key' ∧ key ∈ ten.keys) ten.keys ten.keys :=
    List.forall₂_same.mpr fun key hkey => ⟨rfl, hkey⟩
  refine any_eq_of_forall₂ hkeys ?_
  rintro key _ ⟨rfl, hkey⟩
  rw [refersTo_eq h hkey hxy]

theorem cascade_eq (h : List.Forall₂ (AlikeCells V ten database) rows rows') (fuel : Nat)
    (gone : List (TableKey × Uuid)) :
    cascade V ten.keys rows fuel gone = cascade V ten.keys rows' fuel gone := by
  induction fuel generalizing gone with
  | zero => rfl
  | succ fuel ih =>
    have hmore := forall₂_filter h
      (p := fun stored => !gone.contains (storedKey stored) &&
        ten.keys.any fun key => key.onDelete == .cascade && refersTo V rows gone key stored)
      (q := fun stored => !gone.contains (storedKey stored) &&
        ten.keys.any fun key => key.onDelete == .cascade && refersTo V rows' gone key stored)
      fun x y hxy => by rw [storedKey_eq hxy, anyKey_eq h (fun key => key.onDelete == .cascade) hxy]
    have hgone := map_eq_of_forall₂ hmore fun x y hxy => storedKey_eq hxy
    have hempty : (rows.filter fun stored => !gone.contains (storedKey stored) &&
          ten.keys.any fun key => key.onDelete == .cascade && refersTo V rows gone key stored).isEmpty =
        (rows'.filter fun stored => !gone.contains (storedKey stored) &&
          ten.keys.any fun key => key.onDelete == .cascade && refersTo V rows' gone key stored).isEmpty := by
      rw [← List.isEmpty_map (f := storedKey), hgone, List.isEmpty_map]
    simp only [cascade]
    rw [hempty, hgone, ih]

theorem setNull_alike (h : List.Forall₂ (AlikeCells V ten database) rows rows') (gone : List (TableKey × Uuid))
    {x y : TableKey × Row ν} (hxy : AlikeCells V ten database x y) :
    AlikeCells V ten database (setNull V ten.keys rows gone x) (setNull V ten.keys rows' gone y) := by
  have hnulled : (fun column => ten.keys.any fun key =>
        (key.onDelete == .setNull && key.column == column) && refersTo V rows gone key x) =
      fun column => ten.keys.any fun key =>
        (key.onDelete == .setNull && key.column == column) && refersTo V rows' gone key y :=
    funext fun column => anyKey_eq h (fun key => key.onDelete == .setNull && key.column == column) hxy
  refine ⟨hxy.table, hxy.id, fun hother => ?_, fun column hc => ?_⟩
  · have heq : x.2 = y.2 := hxy.outside hother
    simp only [setNull]
    rw [heq]
    exact congrArg (fun p : String → Bool => { y.2 with cells := y.2.cells.filter fun cell => !p cell.1 }) hnulled
  · have hvalue : x.2.value V column = y.2.value V column := hxy.constrained column hc
    by_cases hid : column = "id"
    · rw [hid, value_id, value_id]
      exact congrArg (fun id => some (V.uuid id)) hxy.id
    · simp only [setNull, Row.value, if_neg hid] at hvalue ⊢
      have hx := find?_filter_cells (fun name => !ten.keys.any fun key =>
        (key.onDelete == .setNull && key.column == name) && refersTo V rows gone key x) x.2.cells column
      have hy := find?_filter_cells (fun name => !ten.keys.any fun key =>
        (key.onDelete == .setNull && key.column == name) && refersTo V rows' gone key y) y.2.cells column
      rw [hx, hy, congrFun hnulled column]
      split
      · exact hvalue
      · rfl

theorem perform_delete_alike (h : List.Forall₂ (AlikeCells V ten database) rows rows') (id : Uuid) :
    List.Forall₂ (AlikeCells V ten database) (RowWrite.perform V ten.keys rows (.delete t id))
      (RowWrite.perform V ten.keys rows' (.delete t id)) := by
  simp only [RowWrite.perform]
  rw [← h.length_eq, cascade_eq h]
  refine forall₂_map (forall₂_filter h fun x y hxy => ?_) fun x y hxy => setNull_alike h _ hxy
  rw [storedKey_eq hxy]

theorem any_id_eq (h : List.Forall₂ (AlikeCells V ten database) rows rows') (id : Uuid) :
    (rows.ofTable t).any (fun r => r.id == id) = (rows'.ofTable t).any fun r => r.id == id := by
  refine any_eq_of_forall₂ (ofTable_alike h t) fun r r' hr => ?_
  have hid : r.id = r'.id := hr.id
  rw [hid]

theorem deleteRow_alike (h : List.Forall₂ (AlikeCells V ten database) rows rows') (rowId : Uuid) :
    (deleteRow V ten t rows rowId).2 = (deleteRow V ten t rows' rowId).2 ∧
      List.Forall₂ (AlikeCells V ten database) (deleteRow V ten t rows rowId).1
        (deleteRow V ten t rows' rowId).1 := by
  have hafter := perform_delete_alike (t := t) h rowId
  unfold deleteRow
  dsimp only
  rw [any_id_eq h, nullsFit_eq hafter, decide_sound_eq hafter]
  split_ifs
  · exact ⟨rfl, h⟩
  · exact ⟨rfl, h⟩
  · exact ⟨rfl, hafter⟩
  · exact ⟨rfl, h⟩

/-! ## Inserts -/

theorem perform_insert_alike (h : List.Forall₂ (AlikeCells V ten database) rows rows') (new : Row ν) :
    List.Forall₂ (AlikeCells V ten database) (RowWrite.perform V ten.keys rows (.insert t new))
      (RowWrite.perform V ten.keys rows' (.insert t new)) :=
  List.rel_append h (.cons ⟨rfl, rfl, fun _ => rfl, fun _ _ => rfl⟩ .nil)

/-- An insert returns what it writes. -/
theorem insertRow_alike (t : TableKey) (columns : List DBColumn)
    (h : List.Forall₂ (AlikeCells sv.toValueType ten database) rows rows') (body : Body) (id : Uuid) :
    (insertRow sv ten t columns rows body id).2 = (insertRow sv ten t columns rows' body id).2 ∧
      List.Forall₂ (AlikeCells sv.toValueType ten database) (insertRow sv ten t columns rows body id).1
        (insertRow sv ten t columns rows' body id).1 := by
  cases body with
  | other falsy => exact ⟨rfl, h⟩
  | fields members =>
    unfold insertRow
    dsimp only
    cases assignments sv.floatText columns .generatedColumn members with
    | error e => exact ⟨rfl, h⟩
    | ok sets =>
      dsimp only
      cases missingColumn? columns sets with
      | some c => exact ⟨rfl, h⟩
      | none =>
        dsimp only
        cases storeAll sv ten t sets with
        | none => exact ⟨rfl, h⟩
        | some values =>
          dsimp only
          have hafter := perform_insert_alike (t := t) h (newRow sv ten t id values)
          have hfits : (ten.columnsOf t).all (fits sv.toValueType rows t (newRow sv ten t id values)) =
              (ten.columnsOf t).all (fits sv.toValueType rows' t (newRow sv ten t id values)) := by
            have hcolumns : List.Forall₂ (fun c c' => c = c' ∧ c ∈ ten.columnsOf t) (ten.columnsOf t)
                (ten.columnsOf t) := List.forall₂_same.mpr fun c hc => ⟨rfl, hc⟩
            refine all_eq_of_forall₂ hcolumns ?_
            rintro c _ ⟨rfl, hc⟩
            exact fits_alike h rfl hc rfl
          rw [any_id_eq h, hfits, decide_sound_eq hafter]
          split_ifs
          · exact ⟨rfl, hafter⟩
          · exact ⟨rfl, h⟩

/-! ## Updates -/

/-- The row that an update finds, in both. -/
theorem find?_alike (h : List.Forall₂ (AlikeCells V ten database) rows rows') (id : Uuid) :
    ((rows.ofTable t).find? (fun r => r.id == id) = none ∧ (rows'.ofTable t).find? (fun r => r.id == id) = none) ∨
      ∃ r r', (rows.ofTable t).find? (fun r => r.id == id) = some r ∧
        (rows'.ofTable t).find? (fun r => r.id == id) = some r' ∧ AlikeCells V ten database (t, r) (t, r') := by
  refine find?_forall₂ (ofTable_alike h t) fun r r' hr => ?_
  have hid : r.id = r'.id := hr.id
  rw [hid]

/-- The rows that an update leaves. -/
theorem replace_alike (h : List.Forall₂ (AlikeCells V ten database) rows rows') (id : Uuid) {r r' : Row ν}
    (hr : AlikeCells V ten database (t, r) (t, r')) :
    List.Forall₂ (AlikeCells V ten database)
      (rows.map fun stored => if storedKey stored = (t, id) then (t, r) else stored)
      (rows'.map fun stored => if storedKey stored = (t, id) then (t, r') else stored) := by
  refine forall₂_map h fun x y hxy => ?_
  rw [storedKey_eq hxy]
  by_cases hkey : storedKey y = (t, id)
  · rw [if_pos hkey, if_pos hkey]
    exact hr
  · rw [if_neg hkey, if_neg hkey]
    exact hxy

theorem fits_assignAll (h : List.Forall₂ (AlikeCells V ten database) rows rows') {r r' : Row ν}
    (hid : r.id = r'.id) {values : List (PhysicalColumn × Option ν)}
    (hvalues : ∀ v ∈ values, v.1 ∈ ten.columnsOf t) :
    (values.all fun v => fits V rows t (assignAll r values) v.1) =
      values.all fun v => fits V rows' t (assignAll r' values) v.1 := by
  have hsame : List.Forall₂ (fun v v' => v = v' ∧ v ∈ values) values values :=
    List.forall₂_same.mpr fun v hv => ⟨rfl, hv⟩
  refine all_eq_of_forall₂ hsame ?_
  rintro v _ ⟨rfl, hv⟩
  refine fits_alike h ?_ (hvalues v hv) (assignAll_value hid (.inl (List.mem_map_of_mem hv)))
  rw [assignAll_id, assignAll_id, hid]

/-- An update leaves rows alike, and returns the same when it conceals what it did not set, or is of another
database. -/
theorem updateRow_alike (t : TableKey) (columns : List DBColumn)
    (h : List.Forall₂ (AlikeCells sv.toValueType ten database) rows rows') (rowId : Uuid) (body : Body) :
    (t.1.database ≠ database ∨ Conceals sv ten t columns rows rowId body →
        (updateRow sv ten t columns rows rowId body).2 = (updateRow sv ten t columns rows' rowId body).2) ∧
      List.Forall₂ (AlikeCells sv.toValueType ten database) (updateRow sv ten t columns rows rowId body).1
        (updateRow sv ten t columns rows' rowId body).1 := by
  unfold updateRow
  split
  · exact ⟨fun _ => rfl, h⟩
  · exact ⟨fun _ => rfl, h⟩
  · exact ⟨fun _ => rfl, h⟩
  · rename_i members hmembers
    cases hsets : assignments sv.floatText columns .unmodifiableColumn members with
    | error e => exact ⟨fun _ => rfl, h⟩
    | ok sets =>
      dsimp only
      cases hvalues : storeAll sv ten t sets with
      | none => exact ⟨fun _ => rfl, h⟩
      | some values =>
        dsimp only
        by_cases hreadable : (!readable ten t columns) = true
        · rw [if_pos hreadable, if_pos hreadable]
          exact ⟨fun _ => rfl, h⟩
        · rw [if_neg hreadable, if_neg hreadable]
          obtain ⟨hnone, hnone'⟩ | ⟨old, old', hold, hold', halike⟩ := find?_alike (t := t) h rowId
          · rw [hnone, hnone']
            exact ⟨fun _ => rfl, h⟩
          · rw [hold, hold']
            have hafter := replace_alike h rowId (halike.assignAll values)
            have hfits := fits_assignAll h halike.id (storeAll_mem hvalues)
            dsimp only
            rw [hfits, decide_sound_eq hafter]
            split_ifs
            · refine ⟨fun hconceals => congrArg Except.ok (List.map_congr_left fun c hc => ?_), hafter⟩
              refine congrArg (Prod.mk c.name) (assignAll_value halike.id ?_)
              obtain hother | hall | ⟨e, he⟩ | hmissing := hconceals
              · have heq : old = old' := halike.outside hother
                exact .inr (heq ▸ rfl)
              · obtain hconstrained | hset := hall c hc
                · exact .inr (halike.constrained c.name hconstrained)
                · left
                  rw [storeAll_names hvalues]
                  rw [← assignments_names hsets] at hset
                  obtain ⟨set, hmem, hname⟩ := List.mem_map.mp hset
                  exact List.mem_map.mpr ⟨set, hmem, String.toList_inj.mp hname⟩
              · rw [hsets] at he
                cases he
              · have hfound := List.find?_some hold
                exact absurd (beq_iff_eq.mp hfound) (hmissing old (List.mem_of_find?_eq_some hold))
            · exact ⟨fun _ => rfl, h⟩

end Databases
