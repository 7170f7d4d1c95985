import IntraCloud.Databases.RowEditor
import IntraCloud.Databases.Proofs.SearchingProofs
import IntraCloud.JavaScript.Proofs.NumbersProofs
import IntraCloud.Python.Proofs.DatetimeProofs
import IntraCloud.Python.Proofs.JsonProofs

/-!
# What a row is after it was saved unchanged

The form keeps whole minutes, texts that are not empty, the integers that JavaScript has, and every decimal, flag,
date and UUID. A document comes back as a string, and the empty text as NULL.
-/

namespace Databases

open Python Relational Transition

/-! ## Texts -/

theorem length_padded (width n : Nat) : (padded width n).length = width := by
  induction width generalizing n with
  | zero => rfl
  | succ width ih => rw [padded, List.length_append, ih, List.length_singleton]

theorem isDigit_of_mem_padded {width n : Nat} {c : Char} (h : c ∈ padded width n) : isDigit c = true := by
  induction width generalizing n with
  | zero => cases h
  | succ width ih =>
    rcases List.mem_append.mp h with hleft | hlast
    · exact ih hleft
    · rw [List.mem_singleton.mp hlast, isDigit_iff, Nat.toNat_digitChar_of_lt_ten (by omega)]
      omega

theorem length_dateText (d : Date) : d.text.length = 10 := by
  simp [Date.text, length_padded]

theorem replaceSpace_of_not_mem {s : List Char} (h : ' ' ∉ s) : replaceSpace s = s := by
  induction s with
  | nil => rfl
  | cons c s ih =>
    obtain ⟨hc, hs⟩ := List.ne_and_not_mem_of_not_mem_cons h
    rw [replaceSpace, ih hs]
    rintro rfl
    exact hc rfl

theorem space_not_mem_padded (width n : Nat) : ' ' ∉ padded width n := by
  intro h
  have hdigit := isDigit_of_mem_padded h
  exact absurd hdigit (by decide)

theorem space_not_mem_isoformat (d : NaiveDatetime) : ' ' ∉ isoformat d := by
  have hpadded := space_not_mem_padded
  unfold isoformat Date.text TimeOfDay.text
  split <;> simp [hpadded]

/-- The first 16 characters are the date, the hour and the minute. -/
theorem take_isoformat (d : NaiveDatetime) :
    (isoformat d).take 16 = d.date.text ++ 'T' :: (padded 2 d.time.hour ++ ':' :: padded 2 d.time.minute) := by
  have hlength : (d.date.text ++ 'T' :: (padded 2 d.time.hour ++ ':' :: padded 2 d.time.minute)).length = 16 := by
    simp [length_dateText, length_padded]
  obtain ⟨rest, hrest⟩ : ∃ rest, isoformat d =
      (d.date.text ++ 'T' :: (padded 2 d.time.hour ++ ':' :: padded 2 d.time.minute)) ++ rest := by
    refine ⟨':' :: padded 2 d.time.second ++ (if d.time.microsecond = 0 then [] else '.' :: padded 6 d.time.microsecond)
      ++ ['Z'], ?_⟩
    simp [isoformat, TimeOfDay.text]
  rw [hrest, List.take_left' hlength]

/-! ## One cell -/

section Cell

variable {floatText : List Char → List Char}

/-- The whole minutes of a time. -/
def wholeMinutes (d : NaiveDatetime) : NaiveDatetime :=
  ⟨d.date, ⟨d.time.hour, d.time.minute, 0, 0, d.time.valid.1, d.time.valid.2.1, by omega, by omega⟩⟩

/-- The parameter that is sent for a cell of an untouched form. -/
def resent : Option Cell → QueryParam
  | none => .plain .none
  | some (.integer n) => .plain (.int (JavaScript.writeInteger (JavaScript.readInteger n)))
  | some (.decimal d) => .plain (.decimal d)
  | some (.boolean b) => .plain (.bool b)
  | some (.date d) => .plain (.date d)
  | some (.timestamp d) => .plain (.datetime (wholeMinutes d))
  | some (.uuid n) => .plain (.str (uuidText n))
  | some (.text s) => if s = [] then .plain .none else .plain (.str s)
  | some (.document s) => .jsonb (.str s)

theorem fieldPayload_cons {dataType : DataType} {s : List Char} (h : s ≠ [])
    (hdefault : dataType ≠ .integer ∧ dataType ≠ .bigint ∧ dataType ≠ .boolean ∧ dataType ≠ .datetime ∧
      dataType ≠ .json) : fieldPayload dataType s = .str s := by
  obtain ⟨hinteger, hbigint, hboolean, hdatetime, hjson⟩ := hdefault
  unfold fieldPayload
  rw [if_neg h]
  cases dataType with
  | integer => exact absurd rfl hinteger
  | bigint => exact absurd rfl hbigint
  | boolean => exact absurd rfl hboolean
  | datetime => exact absurd rfl hdatetime
  | json => exact absurd rfl hjson
  | text | varchar | decimal | date | uuid => rfl

theorem intText_ne_nil (n : Int) : intText n ≠ [] := by
  cases n with
  | ofNat n => exact natText_ne_nil n
  | negSucc n => exact List.cons_ne_nil _ _

/-- An integer is read, written, read and written. -/
theorem untouched_integer {dataType : DataType} (h : dataType = .integer ∨ dataType = .bigint) (n : Int) :
    untouched dataType (some (.integer n)) = .int (JavaScript.writeInteger (JavaScript.readInteger n)) := by
  have htext : fieldText dataType (Cell.integer n).raw =
      intText (JavaScript.writeInteger (JavaScript.readInteger n)) := by
    rcases h with rfl | rfl <;> rfl
  show fieldPayload dataType (fieldText dataType (Cell.integer n).raw) = _
  rw [htext]
  unfold fieldPayload
  rw [if_neg (intText_ne_nil _), JavaScript.parseInt_intText, JavaScript.readInteger_written]
  rcases h with rfl | rfl <;> rfl

theorem parseDecimal?_cell {precision scale : Nat} {d : Decimal}
    (h : (SqlType.numeric precision scale).Contains (.decimal d)) :
    parseDecimal? d.text = some d ∧ d.text ≠ [] := by
  rcases h with rfl | ⟨negative, coefficient, rfl, -, hdigits, hscale, hprecision⟩
  · exact ⟨by decide, by decide⟩
  · have hmax : MAX_DECIMAL_PRECISION = 1000 := rfl
    have hlimits : scale ≤ 1000 ∧ (natText coefficient).length ≤ 1000 := by omega
    obtain ⟨hparse, -, hpos, -⟩ := @parseDecimal?_text negative coefficient scale hlimits.1 hlimits.2
    exact ⟨hparse, List.length_pos_iff.mp hpos⟩

theorem validate_decimal {precision scale : Nat} {d : Decimal}
    (h : (SqlType.numeric precision scale).Contains (.decimal d)) :
    validateAndConvert floatText (untouched .decimal (some (.decimal d))) .decimal =
      .ok (resent (some (.decimal d))) := by
  obtain ⟨hparse, hne⟩ := parseDecimal?_cell h
  have hpayload : untouched .decimal (some (.decimal d)) = .str d.text := fieldPayload_cons hne (by decide)
  rw [hpayload]
  show validateDecimal floatText (.str d.text) = _
  have hvalue : (strText? floatText (.str d.text)).bind parseDecimal? = some d := hparse
  unfold validateDecimal
  rw [hvalue]
  rfl

theorem validate_date (d : Date) :
    validateAndConvert floatText (untouched .date (some (.date d))) .date = .ok (resent (some (.date d))) := by
  have hne : d.text ≠ [] := List.length_pos_iff.mp (by rw [length_dateText]; decide)
  have hpayload : untouched .date (some (.date d)) = .str d.text := fieldPayload_cons hne (by decide)
  have hvalue : (strOf? (.str d.text)).bind (strptime Imports.dateFormat) = some ⟨d, .midnight⟩ := strptime_date d
  rw [hpayload]
  show validateDate (.str d.text) = _
  unfold validateDate
  rw [hvalue]
  rfl

/-- The form cuts the seconds off, and sends zero seconds. -/
theorem untouched_datetime (d : NaiveDatetime) :
    untouched .datetime (some (.timestamp d)) =
      .str (d.date.text ++ 'T' :: (padded 2 d.time.hour ++ ':' :: (padded 2 d.time.minute ++ ':' :: padded 2 0))) := by
  have htext : fieldText .datetime (Cell.timestamp d).raw =
      d.date.text ++ 'T' :: (padded 2 d.time.hour ++ ':' :: padded 2 d.time.minute) := by
    show (replaceSpace (isoformat d)).take 16 = _
    rw [replaceSpace_of_not_mem (space_not_mem_isoformat d), take_isoformat]
  have hlength : (d.date.text ++ 'T' :: (padded 2 d.time.hour ++ ':' :: padded 2 d.time.minute)).length = 16 := by
    simp [length_dateText, length_padded]
  show fieldPayload .datetime (fieldText .datetime (Cell.timestamp d).raw) = _
  rw [htext]
  unfold fieldPayload
  rw [if_neg (List.length_pos_iff.mp (by omega)), if_pos hlength]
  have hzero : ":00".toList = ':' :: padded 2 0 := rfl
  rw [hzero]
  simp only [List.append_assoc, List.cons_append]

theorem validate_datetime (d : NaiveDatetime) :
    validateAndConvert floatText (untouched .datetime (some (.timestamp d))) .datetime =
      .ok (resent (some (.timestamp d))) := by
  have hvalue := strptime_datetime d.date d.time.valid.1 d.time.valid.2.1 (show 0 < 60 by decide)
  rw [untouched_datetime]
  show validateDatetime (.str _) = _
  unfold validateDatetime
  have hfirst : (strOf? (.str (d.date.text ++ 'T' :: (padded 2 d.time.hour ++ ':' ::
      (padded 2 d.time.minute ++ ':' :: padded 2 0))))).bind
        (fun s => Imports.datetimeFormats.findSome? (strptime · s)) = some (wholeMinutes d) := by
    show Imports.datetimeFormats.findSome? (strptime · _) = _
    unfold Imports.datetimeFormats
    rw [List.findSome?_cons]
    have hformat : Imports.dateFormat ++ [.literal 'T', .hour, .literal ':', .minute, .literal ':', .second] =
      [.year, .literal '-', .month, .literal '-', .day] ++
        [.literal 'T', .hour, .literal ':', .minute, .literal ':', .second] := rfl
    rw [hformat, hvalue]
    rfl
  rw [hfirst]
  rfl

theorem uuidText_ne_nil (n : Nat) : uuidText n ≠ [] :=
  List.length_pos_iff.mp (by rw [length_uuidText]; decide)

theorem validate_uuid {n : Nat} (h : n < 16 ^ 32) :
    validateAndConvert floatText (untouched .uuid (some (.uuid n))) .uuid = .ok (resent (some (.uuid n))) := by
  have hpayload : untouched .uuid (some (.uuid n)) = .str (uuidText n) :=
    fieldPayload_cons (s := uuidText n) (uuidText_ne_nil n) (by decide)
  have hvalue : (strText? floatText (.str (uuidText n))).bind parseUuid? = some n := by
    rw [strText?, Option.bind_some, parseUuid?_uuidText h]
  have hvalidate : validateUuid floatText (.str (uuidText n)) = .ok (.plain (.str (uuidText n))) := by
    unfold validateUuid
    rw [hvalue]
  rw [hpayload]
  exact hvalidate

theorem validate_text {dataType : DataType} (h : dataType = .text ∨ dataType = .varchar) (s : List Char) :
    validateAndConvert floatText (untouched dataType (some (.text s))) dataType = .ok (resent (some (.text s))) := by
  have htext : fieldText dataType (Cell.text s).raw = s := by
    rcases h with rfl | rfl <;> rfl
  by_cases hs : s = []
  · subst hs
    have hpayload : untouched dataType (some (.text [])) = .null := by
      show fieldPayload dataType (fieldText dataType (Cell.text []).raw) = _
      rw [htext]
      exact if_pos rfl
    rw [hpayload]
    rfl
  · have hpayload : untouched dataType (some (.text s)) = .str s := by
      show fieldPayload dataType (fieldText dataType (Cell.text s).raw) = _
      rw [htext]
      exact fieldPayload_cons hs (by rcases h with rfl | rfl <;> decide)
    rw [hpayload, resent, if_neg hs]
    rcases h with rfl | rfl <;> rfl

/-- The text of a document is written and read as a string. -/
theorem untouched_document (s : List Char) : untouched .json (some (.document s)) = .str s := by
  have hloads : Json.loads (Json.text none 0 (.str s)) = some (.str s) := Json.loadsWith_text none none trivial
  have hne : Json.text none 0 (.str s) ≠ [] := by
    intro hempty
    rw [hempty] at hloads
    have hnone : Json.loads [] = none := by decide
    rw [hnone] at hloads
    cases hloads
  show fieldPayload .json (Json.text none 0 (.str s)) = _
  unfold fieldPayload
  rw [if_neg hne, hloads]

/-- What the server makes of the field of an untouched form. -/
theorem validate_untouched {dataType : DataType} {maxLength precision scale : Option Nat} {v : Cell}
    (h : (sqlType dataType maxLength precision scale).Contains v) :
    validateAndConvert floatText (untouched dataType (some v)) dataType = .ok (resent (some v)) := by
  cases v with
  | integer n =>
    have htype : dataType = .integer ∨ dataType = .bigint := by
      cases dataType with
      | integer => exact .inl rfl
      | bigint => exact .inr rfl
      | _ => exact h.elim
    rw [untouched_integer htype]
    rcases htype with rfl | rfl <;> rfl
  | decimal d =>
    cases dataType with
    | decimal => exact validate_decimal h
    | _ => exact h.elim
  | boolean b =>
    cases dataType with
    | boolean => cases b <;> rfl
    | _ => exact h.elim
  | date d =>
    cases dataType with
    | date => exact validate_date d
    | _ => exact h.elim
  | timestamp d =>
    cases dataType with
    | datetime => exact validate_datetime d
    | _ => exact h.elim
  | uuid n =>
    cases dataType with
    | uuid => exact validate_uuid h
    | _ => exact h.elim
  | text s =>
    have htype : dataType = .text ∨ dataType = .varchar := by
      cases dataType with
      | text => exact .inl rfl
      | varchar => exact .inr rfl
      | _ => exact h.elim
    exact validate_text htype s
  | document s =>
    cases dataType with
    | json =>
      rw [untouched_document]
      rfl
    | _ => exact h.elim

end Cell

/-! ## One row -/

section Row

variable {sv : Server Cell} {ten : Tenant} {t : DBTable} {columns : List DBColumn} {rows : TenantRows Cell}
  {r : Row Cell}

theorem wholeMinutes_eq_iff (d : NaiveDatetime) : wholeMinutes d = d ↔ d.time.second = 0 ∧ d.time.microsecond = 0 := by
  obtain ⟨date, ⟨hour, minute, second, microsecond, valid⟩⟩ := d
  unfold wholeMinutes
  simp only [NaiveDatetime.mk.injEq, TimeOfDay.mk.injEq, true_and]
  exact ⟨fun h => ⟨h.1.symm, h.2.symm⟩, fun h => ⟨h.1.symm, h.2.symm⟩⟩

/-- A column holds what it held where the value survives. -/
theorem store_resent_iff (hsv : sv.StoresCells) {x : PhysicalColumn} {v : Cell} (h : x.type.Contains v) :
    sv.store x (resent (some v)) = some (some v) ↔ v.Survives := by
  cases v with
  | integer n =>
    constructor
    · intro hstore
      have htype : x.type = .integer ∨ x.type = .bigint := by
        cases hx : x.type with
        | integer => exact .inl rfl
        | bigint => exact .inr rfl
        | _ =>
          rw [hx] at h
          exact h.elim
      have heq := hsv.integer _ _ _ htype hstore
      exact (Cell.integer.inj (Option.some.inj heq)).symm
    · intro hsurvives
      have hn : JavaScript.writeInteger (JavaScript.readInteger n) = n := hsurvives
      rw [resent, hn]
      exact hsv.again x _ _ h rfl
  | timestamp d =>
    have hiff := wholeMinutes_eq_iff d
    constructor
    · intro hstore
      have htype : x.type = .timestamptz := by
        cases hx : x.type with
        | timestamptz => rfl
        | _ =>
          rw [hx] at h
          exact h.elim
      have heq := hsv.timestamp _ _ _ htype hstore
      exact hiff.mp (Cell.timestamp.inj (Option.some.inj heq)).symm
    · intro hsurvives
      rw [resent, hiff.mpr hsurvives]
      exact hsv.again x _ _ h rfl
  | text s =>
    rw [resent]
    by_cases hs : s = []
    · rw [if_pos hs, hsv.null x]
      constructor
      · intro hstore
        cases hstore
      · exact fun hsurvives => absurd hs hsurvives
    · rw [if_neg hs]
      exact ⟨fun _ => hs, fun _ => hsv.again x _ _ h rfl⟩
  | document s =>
    constructor
    · intro hstore
      have htype : x.type = .jsonb := by
        cases hx : x.type with
        | jsonb => rfl
        | _ =>
          rw [hx] at h
          exact h.elim
      have hlength := Json.loads_str_length (hsv.document x s s htype hstore)
      exact Nat.lt_irrefl _ hlength
    · exact fun hsurvives => hsurvives.elim
  | decimal d => exact ⟨fun _ => trivial, fun _ => hsv.again x _ _ h rfl⟩
  | boolean b => exact ⟨fun _ => trivial, fun _ => hsv.again x _ _ h rfl⟩
  | date d => exact ⟨fun _ => trivial, fun _ => hsv.again x _ _ h rfl⟩
  | uuid n => exact ⟨fun _ => trivial, fun _ => hsv.again x _ _ h rfl⟩

theorem find?_toList (h : BuiltColumns t columns ten) {c : DBColumn} (hc : c ∈ columns) :
    columns.find? (fun x => x.name.toList == c.name.toList) = some c := by
  cases hfind : columns.find? fun x => x.name.toList == c.name.toList with
  | none =>
    have hnone := List.find?_eq_none.mp hfind c hc
    exact absurd (beq_self_eq_true _) hnone
  | some c' => rw [find?_of_mem h hc rfl hfind]

/-- No field of the form is refused. -/
theorem assignments_untouched (h : BuiltColumns t columns ten) (floatText : List Char → List Char)
    {V : ValueType Cell}
    (hcontains : ∀ c ∈ columns, ∀ v, r.value V c.name = some v → (t.physicalColumn c).type.Contains v)
    (cs : List DBColumn) (hcs : ∀ c ∈ cs, c ∈ columns ∧ c.isPrimaryKey = false) :
    assignments floatText columns .unmodifiableColumn
        (cs.map fun c => (c.name.toList, untouched c.dataType (r.value V c.name))) =
      .ok (cs.map fun c => (c.name, resent (r.value V c.name))) := by
  induction cs with
  | nil => rfl
  | cons c cs ih =>
    obtain ⟨⟨hc, hkey⟩, hrest⟩ := List.forall_mem_cons.mp hcs
    have hvalue : validateAndConvert floatText (untouched c.dataType (r.value V c.name)) c.dataType =
        .ok (resent (r.value V c.name)) := by
      cases hcell : r.value V c.name with
      | none => rfl
      | some v => exact validate_untouched (hcontains c hc v hcell)
    rw [List.map_cons, assignments, find?_toList h hc]
    dsimp only
    rw [hkey, if_neg Bool.false_ne_true, hvalue]
    dsimp only
    rw [ih hrest]
    rfl

/-- The statement stores what the columns make of the parameters. -/
theorem storeAll_eq_some_iff (h : BuiltColumns t columns ten) (q : DBColumn → QueryParam) {cs : List DBColumn}
    (hcs : ∀ c ∈ cs, c ∈ columns) (values : List (PhysicalColumn × Option Cell)) :
    storeAll sv ten t.physical (cs.map fun c => (c.name, q c)) = some values ↔
      List.Forall₂ (fun c v => v.1 = t.physicalColumn c ∧ sv.store (t.physicalColumn c) (q c) = some v.2) cs
        values := by
  induction cs generalizing values with
  | nil =>
    constructor
    · intro hall
      cases hall
      exact .nil
    · intro hall
      cases hall
      rfl
  | cons c cs ih =>
    obtain ⟨hc, hrest⟩ := List.forall_mem_cons.mp hcs
    have hcolumn := h.column?_eq hc
    constructor
    · intro hall
      rw [List.map_cons, storeAll, List.mapM_cons] at hall
      obtain ⟨value, hvalue, hall⟩ := Option.bind_eq_some_iff.mp hall
      obtain ⟨rest, hmap, hall⟩ := Option.bind_eq_some_iff.mp hall
      obtain ⟨x, hx, hvalue⟩ := Option.bind_eq_some_iff.mp hvalue
      obtain ⟨v, hv, hvalue⟩ := Option.bind_eq_some_iff.mp hvalue
      rw [hcolumn] at hx
      cases hx
      cases hvalue
      cases hall
      exact .cons ⟨rfl, hv⟩ ((ih hrest rest).mp hmap)
    · intro hall
      cases hall with
      | cons hvalue hvalues =>
        rename_i v vs
        obtain ⟨x, w⟩ := v
        obtain ⟨rfl, hstore⟩ := hvalue
        have hmap := (ih hrest vs).mpr hvalues
        unfold storeAll at hmap ⊢
        rw [List.map_cons, List.mapM_cons, hmap, hcolumn]
        simp only [bind, Option.bind, hstore]
        rfl

/-- A column has what it is set to, or had before. -/
theorem assignAll_eq {V : ValueType Cell} {values : List (PhysicalColumn × Option Cell)} {name : String}
    {w : Option Cell} (hid : name ≠ "id") (hw : ∀ v ∈ values, v.1.name = name → v.2 = w) {r : Row Cell}
    (h : name ∈ values.map (·.1.name) ∨ r.value V name = w) : (assignAll r values).value V name = w := by
  induction values generalizing r with
  | nil =>
    rcases h with hmem | hvalue
    · cases hmem
    · exact hvalue
  | cons v values ih =>
    obtain ⟨hv, hvalues⟩ := List.forall_mem_cons.mp hw
    refine ih hvalues ?_
    rw [value_assign r v.1.name v.2 hid]
    by_cases hname : name = v.1.name
    · rw [if_pos hname]
      exact .inr (hv hname.symm)
    · rw [if_neg hname]
      rcases h with hmem | hvalue
      · exact .inl ((List.mem_cons.mp hmem).resolve_left hname)
      · exact .inr hvalue

/-- Every column has what it had, where it is set to it. -/
theorem assignAll_same {V : ValueType Cell} {values : List (PhysicalColumn × Option Cell)}
    (h : ∀ v ∈ values, v.2 = r.value V v.1.name) (name : String) :
    (assignAll r values).value V name = r.value V name := by
  by_cases hid : name = "id"
  · rw [hid, value_id, value_id, assignAll_id]
  · exact assignAll_eq hid (fun v hv hname => hname ▸ h v hv) (.inr rfl)

/-- What becomes of an update whose values are stored. -/
theorem updateRow_stored (h : BuiltColumns t columns ten) (hkeyed : Keyed Row.id (rows.ofTable t.physical))
    (hr : r ∈ rows.ofTable t.physical) {members : List (List Char × PyJson)} (hmembers : members ≠ [])
    {sets : List (String × QueryParam)}
    (hsets : assignments sv.floatText columns .unmodifiableColumn members = .ok sets)
    {values : List (PhysicalColumn × Option Cell)} (hvalues : storeAll sv ten t.physical sets = some values) :
    updateRow sv ten t.physical columns rows r.id (.fields members) =
      let new := assignAll r values
      let after := rows.map fun stored => if storedKey stored = (t.physical, r.id) then (t.physical, new) else stored
      if values.all (fun v => fits sv.toValueType rows t.physical new v.1) &&
          decide (TenantRows.Sound sv.toValueType ten.keys after) then
        (after, .ok (rowDict sv.toValueType columns new))
      else (rows, .error .serverError) := by
  have hfind : (rows.ofTable t.physical).find? (fun x => x.id == r.id) = some r := hkeyed.find?_eq hr
  cases members with
  | nil => exact absurd rfl hmembers
  | cons m members =>
    unfold updateRow
    simp only [hsets, hvalues, h.readable, Bool.not_true, Bool.false_eq_true, if_false, hfind]

theorem updateRow_unstored {rowId : Uuid} {members : List (List Char × PyJson)} (hmembers : members ≠ [])
    {sets : List (String × QueryParam)}
    (hsets : assignments sv.floatText columns .unmodifiableColumn members = .ok sets)
    (hvalues : storeAll sv ten t.physical sets = none) :
    updateRow sv ten t.physical columns rows rowId (.fields members) = (rows, .error .serverError) := by
  cases members with
  | nil => exact absurd rfl hmembers
  | cons m members =>
    unfold updateRow
    simp only [hsets, hvalues]

theorem editable_iff {c : DBColumn} :
    c ∈ columns.filter (fun c => !c.isPrimaryKey) ↔ c ∈ columns ∧ c.isPrimaryKey = false := by
  rw [List.mem_filter, Bool.not_eq_true']

theorem HeldRows.contains_column (hrows : HeldRows sv ten t.physical rows) (h : BuiltColumns t columns ten)
    (hr : r ∈ rows.ofTable t.physical) {c : DBColumn} (hc : c ∈ columns) {v : Cell}
    (hv : r.value sv.toValueType c.name = some v) : (t.physicalColumn c).type.Contains v :=
  hrows.contains r hr (t.physicalColumn c) ((h.physical _).mpr ⟨c, hc, rfl⟩) v hv

theorem mem_ofTable {x : Row Cell} {key : TableKey} : x ∈ rows.ofTable key ↔ (key, x) ∈ rows := by
  unfold TenantRows.ofTable
  rw [List.mem_map]
  constructor
  · rintro ⟨⟨k, y⟩, hy, rfl⟩
    obtain ⟨hmem, hkey⟩ := List.mem_filter.mp hy
    obtain rfl : k = key := beq_iff_eq.mp hkey
    exact hmem
  · intro hmem
    exact ⟨(key, x), List.mem_filter.mpr ⟨hmem, beq_iff_eq.mpr rfl⟩, rfl⟩

/-- The rows after an update that changes no value are alike. -/
theorem alike_update (ten : Tenant) {V : ValueType Cell} {key : TableKey} {new : Row Cell} (hid : new.id = r.id)
    (hnew : ∀ name, new.value V name = r.value V name) (hkeyed : Keyed Row.id (rows.ofTable key))
    (hr : r ∈ rows.ofTable key) :
    List.Forall₂ (AlikeCells V ten key.1.database) rows
      (rows.map fun stored => if storedKey stored = (key, r.id) then (key, new) else stored) := by
  refine List.forall₂_map_right_iff.mpr (List.forall₂_same.mpr fun stored hstored => ?_)
  by_cases hkey : storedKey stored = (key, r.id)
  · rw [if_pos hkey]
    obtain ⟨k, x⟩ := stored
    obtain ⟨rfl, hx⟩ : k = key ∧ x.id = r.id := Prod.mk.inj hkey
    obtain rfl : x = r := hkeyed x (mem_ofTable.mpr hstored) r hr hx
    exact ⟨rfl, hid.symm, fun hother => absurd rfl hother, fun name _ => (hnew name).symm⟩
  · rw [if_neg hkey]
    exact ⟨rfl, rfl, fun _ => rfl, fun _ _ => rfl⟩

/-- A row whose values survive is kept. -/
theorem saves_of_survive (h : BuiltColumns t columns ten) (hsv : sv.StoresCells)
    (hrows : HeldRows sv ten t.physical rows) (hr : r ∈ rows.ofTable t.physical)
    (hsome : ∃ c ∈ columns, c.isPrimaryKey = false)
    (hsurvive : ∀ c ∈ columns, c.isPrimaryKey = false → ∀ v, r.value sv.toValueType c.name = some v → v.Survives) :
    SavesUnchanged sv ten t.physical columns rows r := by
  have hassign := assignments_untouched h sv.floatText (fun c hc v hv => hrows.contains_column h hr hc hv)
    (columns.filter fun c => !c.isPrimaryKey) fun c hc => editable_iff.mp hc
  have hmembers : buildPayload sv.toValueType columns r ≠ [] := by
    obtain ⟨c, hc, hkey⟩ := hsome
    intro hempty
    have hnil := List.map_eq_nil_iff.mp hempty
    have hmem : c ∈ columns.filter fun c => !c.isPrimaryKey := editable_iff.mpr ⟨hc, hkey⟩
    rw [hnil] at hmem
    cases hmem
  let values := (columns.filter fun c => !c.isPrimaryKey).map fun c =>
    (t.physicalColumn c, r.value sv.toValueType c.name)
  have hvalues : storeAll sv ten t.physical ((columns.filter fun c => !c.isPrimaryKey).map fun c =>
      (c.name, resent (r.value sv.toValueType c.name))) = some values := by
    refine (storeAll_eq_some_iff h _ (fun c hc => (editable_iff.mp hc).1) values).mpr ?_
    refine List.forall₂_map_right_iff.mpr (List.forall₂_same.mpr fun c hc => ⟨rfl, ?_⟩)
    obtain ⟨hmem, hkey⟩ := editable_iff.mp hc
    dsimp only
    cases hcell : r.value sv.toValueType c.name with
    | none => exact hsv.null _
    | some v => exact (store_resent_iff hsv (hrows.contains_column h hr hmem hcell)).mpr (hsurvive c hmem hkey v hcell)
  have hnew : ∀ name, (assignAll r values).value sv.toValueType name = r.value sv.toValueType name := by
    refine assignAll_same fun v hv => ?_
    obtain ⟨c, -, rfl⟩ := List.mem_map.mp hv
    rfl
  have hid : (assignAll r values).id = r.id := assignAll_id r values
  have hfits : values.all (fun v => fits sv.toValueType rows t.physical (assignAll r values) v.1) = true := by
    refine List.all_eq_true.mpr fun v hv => ?_
    obtain ⟨c, hc, rfl⟩ := List.mem_map.mp hv
    have hcolumn : t.physicalColumn c ∈ ten.columnsOf t.physical := (h.physical _).mpr ⟨c, (editable_iff.mp hc).1, rfl⟩
    have hold := hrows.fits r hr _ hcolumn
    unfold fits at hold ⊢
    rw [hnew, hid]
    exact hold
  have halike := alike_update ten hid hnew hrows.keyed hr
  have hsound := (sound_iff halike).mp hrows.sound
  have hdict : rowDict sv.toValueType columns (assignAll r values) = rowDict sv.toValueType columns r := by
    unfold rowDict
    simp only [hnew]
  have hsaved := updateRow_stored h hrows.keyed hr hmembers hassign hvalues
  unfold SavesUnchanged
  dsimp only at hsaved ⊢
  rw [hsaved, hfits, decide_eq_true hsound, Bool.and_self, if_pos rfl, hdict]
  refine ⟨rfl, fun r' hr' hsame c _ => ?_⟩
  obtain ⟨stored, hstored, heq⟩ := List.mem_map.mp (mem_ofTable.mp hr')
  by_cases hkey : storedKey stored = (t.physical, r.id)
  · rw [if_pos hkey] at heq
    obtain ⟨-, rfl⟩ := Prod.mk.inj heq
    exact hnew c.name
  · rw [if_neg hkey] at heq
    subst heq
    have hkey' : storedKey (t.physical, r') = (t.physical, r.id) := by
      rw [← hsame]
      rfl
    exact absurd hkey' hkey

/-- A row that is kept has fields, and values that survive. -/
theorem survive_of_saves (h : BuiltColumns t columns ten) (hsv : sv.StoresCells)
    (hrows : HeldRows sv ten t.physical rows) (hr : r ∈ rows.ofTable t.physical)
    (hsaves : SavesUnchanged sv ten t.physical columns rows r) :
    (∃ c ∈ columns, c.isPrimaryKey = false) ∧
      ∀ c ∈ columns, c.isPrimaryKey = false → ∀ v, r.value sv.toValueType c.name = some v → v.Survives := by
  have hok := hsaves.1
  have hassign := assignments_untouched h sv.floatText (fun c hc v hv => hrows.contains_column h hr hc hv)
    (columns.filter fun c => !c.isPrimaryKey) fun c hc => editable_iff.mp hc
  by_cases hmembers : buildPayload sv.toValueType columns r = []
  · rw [hmembers] at hok
    cases hok
  · have hsome : ∃ c ∈ columns, c.isPrimaryKey = false := by
      obtain ⟨c, hc⟩ := List.exists_mem_of_ne_nil _ fun hnil => hmembers (List.map_eq_nil_iff.mpr hnil)
      exact ⟨c, editable_iff.mp hc⟩
    refine ⟨hsome, ?_⟩
    cases hvalues : storeAll sv ten t.physical ((columns.filter fun c => !c.isPrimaryKey).map fun c =>
        (c.name, resent (r.value sv.toValueType c.name))) with
    | none =>
      rw [updateRow_unstored hmembers hassign hvalues] at hok
      cases hok
    | some values =>
      rw [updateRow_stored h hrows.keyed hr hmembers hassign hvalues] at hok
      dsimp only at hok
      split_ifs at hok with hchecks
      have hdict := Except.ok.inj hok
      have hstored := (storeAll_eq_some_iff h _ (fun c hc => (editable_iff.mp hc).1) values).mp hvalues
      intro c hc hkey v hv
      obtain ⟨⟨x, w⟩, hmem, rfl, hstore⟩ := exists_mem_of_forall₂ hstored (editable_iff.mpr ⟨hc, hkey⟩)
      have hsame : (assignAll r values).value sv.toValueType c.name = r.value sv.toValueType c.name := by
        have hcolumns := List.map_inj_left.mp hdict c hc
        exact (Prod.mk.inj hcolumns).2
      have hid : c.name ≠ "id" := by
        intro hid
        rw [(h.keys c hc).mpr hid] at hkey
        cases hkey
      have hset : (assignAll r values).value sv.toValueType c.name = w := by
        refine assignAll_eq hid (fun v' hv' hname => ?_) (.inl (List.mem_map.mpr ⟨_, hmem, rfl⟩))
        obtain ⟨c', hc', hcolumn, hstore'⟩ := exists_mem_of_forall₂ hstored.flip hv'
        have hnames : c'.name = c.name := by
          rw [hcolumn] at hname
          exact hname
        obtain rfl := h.names c' (editable_iff.mp hc').1 c hc hnames
        exact Option.some.inj (hstore'.symm.trans hstore)
      rw [← hset, hsame, hv] at hstore
      exact (store_resent_iff hsv (hrows.contains_column h hr hc hv)).mp hstore

end Row

/-- Saving the editor of a row that nobody touched succeeds and leaves every cell as it was, exactly where the table
has a column to edit and every value of the row comes through the form. -/
theorem savesUnchanged_iff (s : State) (as : List Action) (hcat : s.catalog = Catalog.empty)
    (hten : s.tenant = Tenant.empty) (t : DBTable) (ten : Tenant)
    (hbuilt : AsBuilt (run step s as).catalog t ten) (sv : Server Cell) (hsv : sv.StoresCells)
    (rows : TenantRows Cell) (hrows : HeldRows sv ten t.physical rows) (r : Row Cell)
    (hr : r ∈ rows.ofTable t.physical) :
    SavesUnchanged sv ten t.physical ((run step s as).catalog.columnsOf t) rows r ↔
      (∃ c ∈ (run step s as).catalog.columnsOf t, c.isPrimaryKey = false) ∧
        ∀ c ∈ (run step s as).catalog.columnsOf t, c.isPrimaryKey = false →
          ∀ v, r.value sv.toValueType c.name = some v → v.Survives := by
  have h := builtColumns_of_run hcat hten hbuilt
  constructor
  · exact survive_of_saves h hsv hrows hr
  · rintro ⟨hsome, hsurvive⟩
    exact saves_of_survive h hsv hrows hr hsome hsurvive

/-- An integer of up to 53 binary digits comes through: every one of an `INTEGER` column. -/
theorem survives_integer {n : Int} (h : SqlType.integer.Contains (.integer n)) : (Cell.integer n).Survives := by
  obtain ⟨hlow, hhigh⟩ : -2147483648 ≤ n ∧ n ≤ 2147483647 := h
  exact JavaScript.writeInteger_readInteger (by omega)

/-! ## A table of notes -/

/-- A server that takes every parameter as it is. -/
def cellServer : Server Cell where
  uuid n := .uuid n
  same
    | .text s, .text s' => s == s'
    | _, _ => false
  text
    | .text s => s
    | _ => []
  store c q :=
    match q with
    | .plain .none => some none
    | .plain (.int n) => some (some (.integer n))
    | .plain (.decimal d) => some (some (.decimal d))
    | .plain (.bool b) => some (some (.boolean b))
    | .plain (.date d) => some (some (.date d))
    | .plain (.datetime d) => some (some (.timestamp d))
    | .plain (.str s) => if c.type = .uuid then (parseUuid? s).map fun n => some (.uuid n) else some (some (.text s))
    -- an empty list is the literal of an empty array
    | .plain (.json (.list [])) =>
      some (some (if c.type = .jsonb then .document "\x7b\x7d".toList else .text "\x7b\x7d".toList))
    | .plain (.json _) => none
    | .jsonb v => some (some (.document (Json.text none 0 v)))
  default _ := none
  equals _ _ := none
  ilike _ _ := false
  before _ _ := true
  floatText := id

theorem cellServer_store_str (c : PhysicalColumn) (s : List Char) :
    cellServer.store c (.plain (.str s)) =
      if c.type = .uuid then (parseUuid? s).map fun n => some (.uuid n) else some (some (.text s)) := rfl

theorem cellServer_store_nil (c : PhysicalColumn) : cellServer.store c (.plain (.json (.list []))) =
    some (some (if c.type = .jsonb then .document "\x7b\x7d".toList else .text "\x7b\x7d".toList)) := rfl

theorem cellServer_storesCells : cellServer.StoresCells where
  null _ := rfl
  again c v q hv hq := by
    cases v with
    | uuid n =>
      obtain rfl := Option.some.inj hq
      have htype : c.type = .uuid := by
        revert hv
        cases c.type <;> intro hv <;> first | rfl | exact hv.elim
      have hn : n < 16 ^ 32 := by
        rw [htype] at hv
        exact hv
      rw [cellServer_store_str, if_pos htype, parseUuid?_uuidText hn, Option.map_some]
    | text s =>
      obtain rfl := Option.some.inj hq
      have htype : c.type ≠ .uuid := by
        intro htype
        rw [htype] at hv
        exact hv
      rw [cellServer_store_str, if_neg htype]
    | document s => cases hq
    | integer n | decimal d | boolean b | date d | timestamp d =>
      obtain rfl := Option.some.inj hq
      rfl
  integer c m v _ hv := (Option.some.inj hv).symm
  timestamp c d v _ hv := (Option.some.inj hv).symm
  document c s text _ hstore := by
    have htext : Json.text none 0 (.str s) = text := Cell.document.inj (Option.some.inj (Option.some.inj hstore))
    rw [← htext]
    exact Json.loadsWith_text none none trivial

/-- Two notes, of which one has the empty title. -/
def noteRows : TenantRows Cell :=
  [(noteRow.physical, ⟨1, [("title", .text "to do".toList)]⟩), (noteRow.physical, ⟨2, [("title", .text [])]⟩)]

/-- The columns of the notes. -/
theorem columnsOf_notes : (run step emptyProject noteTable).tenant.columnsOf noteRow.physical =
    [⟨⟨100⟩, "notes", "id", .uuid, true, true, true, .genRandomUuid⟩,
      ⟨⟨100⟩, "notes", "title", .text, false, false, false, .absent⟩] := by
  decide

theorem heldRows_notes : HeldRows cellServer (run step emptyProject noteTable).tenant noteRow.physical noteRows := by
  have hrows : ∀ {r : Row Cell}, r ∈ noteRows.ofTable noteRow.physical →
      r = ⟨1, [("title", .text "to do".toList)]⟩ ∨ r = ⟨2, [("title", .text [])]⟩ := by
    intro r hr
    have hlist : noteRows.ofTable noteRow.physical =
        [⟨1, [("title", .text "to do".toList)]⟩, ⟨2, [("title", .text [])]⟩] := rfl
    rw [hlist, List.mem_cons, List.mem_singleton] at hr
    exact hr
  have hcolumns : ∀ {c : PhysicalColumn}, c ∈ (run step emptyProject noteTable).tenant.columnsOf noteRow.physical →
      c.name = "id" ∧ c.type = .uuid ∨ c.name = "title" ∧ c.type = .text ∧ c.notNull = false ∧ c.unique = false := by
    intro c hc
    rw [columnsOf_notes, List.mem_cons, List.mem_singleton] at hc
    rcases hc with rfl | rfl
    · exact .inl ⟨rfl, rfl⟩
    · exact .inr ⟨rfl, rfl, rfl, rfl⟩
  refine ⟨?_, ?_, ?_, by decide⟩
  · intro a ha b hb hid
    rcases hrows ha with rfl | rfl <;> rcases hrows hb with rfl | rfl
    · rfl
    · exact absurd hid (by decide)
    · exact absurd hid (by decide)
    · rfl
  · intro r hr c hc v hv
    rcases hcolumns hc with ⟨hname, htype⟩ | ⟨hname, htype, -, -⟩
    · rw [hname, value_id] at hv
      rw [htype, ← Option.some.inj hv]
      rcases hrows hr with rfl | rfl
      · exact show 1 < Nat.pow 16 32 by decide
      · exact show 2 < Nat.pow 16 32 by decide
    · rw [hname] at hv
      rw [htype]
      rcases hrows hr with rfl | rfl
      · cases hv
        exact show '\x00' ∉ "to do".toList by decide
      · cases hv
        exact List.not_mem_nil
  · intro r hr c hc
    rw [columnsOf_notes, List.mem_cons, List.mem_singleton] at hc
    rcases hrows hr with rfl | rfl <;> rcases hc with rfl | rfl <;> rfl

theorem savesUnchanged_iff_notes :
    SavesUnchanged cellServer (run step emptyProject noteTable).tenant noteRow.physical
        ((run step emptyProject noteTable).catalog.columnsOf noteRow) noteRows
        ⟨1, [("title", .text "to do".toList)]⟩ ↔
      (∃ c ∈ (run step emptyProject noteTable).catalog.columnsOf noteRow, c.isPrimaryKey = false) ∧
        ∀ c ∈ (run step emptyProject noteTable).catalog.columnsOf noteRow, c.isPrimaryKey = false →
          ∀ v, Row.value cellServer.toValueType ⟨1, [("title", .text "to do".toList)]⟩ c.name = some v → v.Survives :=
  savesUnchanged_iff emptyProject noteTable rfl rfl noteRow _ asBuilt_notes cellServer cellServer_storesCells
    noteRows heldRows_notes _ (List.mem_cons_self ..)

/-- The empty title is NULL after the note was saved. -/
theorem not_savesUnchanged_empty :
    AsBuilt (run step emptyProject noteTable).catalog noteRow (run step emptyProject noteTable).tenant ∧
      HeldRows cellServer (run step emptyProject noteTable).tenant noteRow.physical noteRows ∧
      ⟨2, [("title", .text [])]⟩ ∈ noteRows.ofTable noteRow.physical ∧
      ¬ SavesUnchanged cellServer (run step emptyProject noteTable).tenant noteRow.physical
        ((run step emptyProject noteTable).catalog.columnsOf noteRow) noteRows ⟨2, [("title", .text [])]⟩ := by
  refine ⟨asBuilt_notes, heldRows_notes, .tail _ (.head _), fun hsaves => ?_⟩
  have hsaved : (updateRow cellServer (run step emptyProject noteTable).tenant noteRow.physical
      ((run step emptyProject noteTable).catalog.columnsOf noteRow) noteRows 2
      (.fields (buildPayload cellServer.toValueType ((run step emptyProject noteTable).catalog.columnsOf noteRow)
        ⟨2, [("title", .text [])]⟩))).2 = .ok [("id", some (.uuid 2)), ("title", none)] := rfl
  have hdict := Except.ok.inj (hsaved.symm.trans hsaves.1)
  have hrow : rowDict cellServer.toValueType ((run step emptyProject noteTable).catalog.columnsOf noteRow)
      ⟨2, [("title", .text [])]⟩ = [("id", some (.uuid 2)), ("title", some (.text []))] := rfl
  rw [hrow] at hdict
  cases hdict

end Databases
