import IntraCloud.Databases.Proofs.DomainsProofs
import IntraCloud.Databases.Proofs.RowEditorProofs
import IntraCloud.Databases.Proofs.ValuesProofs
import IntraCloud.Exports.Cells
import IntraCloud.Exports.Proofs.ScanProofs
import IntraCloud.Python.Proofs.CodecsProofs
import IntraCloud.Python.Proofs.CsvProofs

/-!
# Which cells come back from a package

The text of a number, a flag, a date or a UUID is read as the parameter the driver would send for it. Stripping and
the limit of the reader decide about texts; the zone of a time is not read, and a document is not written as one.
-/

namespace Exports

open Databases Python Transition

/-! ## One cell -/

section Cell

variable {sv : Server Cell} {t : DBTable} {c : DBColumn}

/-- A text that is read as it is written. -/
structure Legible (s : List Char) : Prop where
  ne : s ≠ []
  stripped : strip s = s
  short : s.length ≤ Csv.fieldLimit

theorem legible_of_forall {s : List Char} (hne : s ≠ []) (h : ∀ c ∈ s, isSpace c = false) (hshort : s.length ≤ 6000) :
    Legible s :=
  ⟨hne, strip_of_forall h, Nat.le_trans hshort (by decide)⟩

theorem Legible.convertValue {s : List Char} (h : Legible s) (T : DataType) :
    Imports.convertValue s T = Imports.convertStripped s T := convertValue_eq h.stripped h.ne T

theorem length_natAbs_le {n : Int} (h : -9223372036854775808 ≤ n ∧ n ≤ 9223372036854775807) :
    (natText n.natAbs).length ≤ 19 := length_natText_le (by decide) (by omega)

theorem numberChar_of_mem_intText {n : Int} {c : Char} (h : c ∈ intText n) : NumberChar c := by
  cases n with
  | ofNat n => exact .inl (isDigit_of_mem_natText h)
  | negSucc n =>
    rcases List.mem_cons.mp h with rfl | h
    · exact .inr (.inl rfl)
    · exact .inl (isDigit_of_mem_natText h)

theorem legible_intText {n : Int} (h : -9223372036854775808 ≤ n ∧ n ≤ 9223372036854775807) : Legible (intText n) := by
  refine legible_of_forall (intText_ne_nil n) (fun c hc => (numberChar_of_mem_intText hc).not_space) ?_
  have hlength := length_natAbs_le h
  cases n with
  | ofNat n => exact Nat.le_trans hlength (by decide)
  | negSucc n =>
    show (natText (n + 1)).length + 1 ≤ 6000
    have hsucc : (natText (n + 1)).length ≤ 19 := hlength
    omega

theorem legible_decimal {precision scale : Nat} {d : Decimal}
    (h : (SqlType.numeric precision scale).Contains (.decimal d)) : Legible d.text := by
  rcases h with rfl | ⟨negative, coefficient, rfl, -, hdigits, hscale, hprecision⟩
  · exact ⟨by decide, by decide, by decide⟩
  · have hmax : MAX_DECIMAL_PRECISION = 1000 := rfl
    obtain ⟨-, hspaces, hpos, hlength⟩ := @parseDecimal?_text negative coefficient scale (by omega) (by omega)
    exact legible_of_forall (List.length_pos_iff.mp hpos) hspaces hlength

theorem legible_date (d : Date) : Legible d.text := by
  have hlength := length_dateText d
  refine legible_of_forall (List.length_pos_iff.mp (by omega)) (fun c hc => ?_) (by omega)
  simp only [Date.text, List.mem_append, List.mem_cons] at hc
  rcases hc with (hc | rfl | hc) | rfl | hc
  · exact isSpace_of_isDigit (isDigit_of_mem_padded hc)
  · decide
  · exact isSpace_of_isDigit (isDigit_of_mem_padded hc)
  · decide
  · exact isSpace_of_isDigit (isDigit_of_mem_padded hc)

theorem legible_uuid (n : Nat) : Legible (uuidText n) := by
  refine legible_of_forall (uuidText_ne_nil n) (fun c hc => ?_) (by rw [length_uuidText]; decide)
  rcases mem_uuidText hc with rfl | ⟨d, hd, rfl⟩
  · decide
  · interval_cases d <;> decide

/-- What is written of a value that comes back is converted to the parameter of the value. -/
theorem converted_of_comesBack {v : Cell} (h : (t.physicalColumn c).type.Contains v) (hv : ComesBack v) :
    Legible (cellText v) ∧ ∃ p, Imports.convertValue (cellText v) c.dataType = .ok p ∧ v.param? = some (.plain p) := by
  have htype : (sqlType c.dataType c.maxLength c.precision c.scale).Contains v := h
  cases v with
  | integer n =>
    have hrange : -9223372036854775808 ≤ n ∧ n ≤ 9223372036854775807 := by
      cases hdata : c.dataType with
      | integer =>
        rw [hdata] at htype
        have hsmall : -2147483648 ≤ n ∧ n ≤ 2147483647 := htype
        omega
      | bigint =>
        rw [hdata] at htype
        exact htype
      | _ =>
        rw [hdata] at htype
        exact htype.elim
    have hlegible := legible_intText hrange
    have hparse : parseInt? (intText n) = some n :=
      parseInt?_intText (Nat.le_trans (length_natAbs_le hrange) (by decide))
    refine ⟨hlegible, .int n, ?_, rfl⟩
    rw [cellText, hlegible.convertValue]
    cases hdata : c.dataType with
    | integer | bigint => simp only [Imports.convertStripped, hparse]
    | _ =>
      rw [hdata] at htype
      exact htype.elim
  | decimal d =>
    cases hdata : c.dataType with
    | decimal =>
      rw [hdata] at htype
      have hlegible := legible_decimal htype
      refine ⟨hlegible, .decimal d, ?_, rfl⟩
      rw [cellText, hlegible.convertValue, Imports.convertStripped, (parseDecimal?_cell htype).1]
    | _ =>
      rw [hdata] at htype
      exact htype.elim
  | boolean b =>
    cases hdata : c.dataType with
    | boolean =>
      cases b with
      | true => exact ⟨⟨by decide, by decide, by decide⟩, .bool true, rfl, rfl⟩
      | false => exact ⟨⟨by decide, by decide, by decide⟩, .bool false, rfl, rfl⟩
    | _ =>
      rw [hdata] at htype
      exact htype.elim
  | date d =>
    cases hdata : c.dataType with
    | date =>
      have hlegible := legible_date d
      have hparse : strptime Imports.dateFormat d.text = some ⟨d, .midnight⟩ := strptime_date d
      refine ⟨hlegible, .date d, ?_, rfl⟩
      rw [cellText, hlegible.convertValue, Imports.convertStripped, hparse]
    | _ =>
      rw [hdata] at htype
      exact htype.elim
  | uuid n =>
    cases hdata : c.dataType with
    | uuid =>
      rw [hdata] at htype
      have hlegible := legible_uuid n
      refine ⟨hlegible, .str (uuidText n), ?_, rfl⟩
      rw [cellText, hlegible.convertValue, Imports.convertStripped, parseUuid?_uuidText htype]
    | _ =>
      rw [hdata] at htype
      exact htype.elim
  | text s =>
    have hlegible : Legible s := ⟨hv.1, hv.2.1, hv.2.2⟩
    refine ⟨hlegible, .str s, ?_, rfl⟩
    rw [cellText, hlegible.convertValue]
    cases hdata : c.dataType with
    | text | varchar => rfl
    | _ =>
      rw [hdata] at htype
      exact htype.elim
  | timestamp d => exact hv.elim
  | document s => exact hv.elim

/-- What is written of a value is stored as the value. -/
def Returned (sv : Server Cell) (t : DBTable) (c : DBColumn) (v : Option Cell) : Prop :=
  ∃ p, Imports.convertValue (exportedText v) c.dataType = .ok p ∧ sv.store (t.physicalColumn c) (.plain p) = some v

theorem plus_not_stripped {s : List Char} (h : '+' ∈ s) : '+' ∈ strip s := by
  have hkeep : ∀ {s : List Char}, '+' ∈ s → '+' ∈ s.dropWhile isSpace := by
    intro s hs
    rw [← List.takeWhile_append_dropWhile (p := isSpace) (l := s)] at hs
    refine (List.mem_append.mp hs).resolve_left fun htaken => ?_
    have hspace := List.all_eq_true.mp (List.all_takeWhile (p := isSpace) (l := s)) _ htaken
    exact absurd hspace (by decide)
  exact List.mem_reverse.mpr (hkeep (List.mem_reverse.mpr (hkeep h)))

/-- The zone of a time is part of no format. -/
theorem convertValue_timestamp (d : NaiveDatetime) :
    ∃ e, Imports.convertValue (cellText (.timestamp d)) .datetime = .error e := by
  have hplus : '+' ∈ strip (cellText (.timestamp d)) := by
    refine plus_not_stripped ?_
    simp only [cellText, List.mem_append, List.mem_cons]
    exact .inr (.inr (.inr (by decide)))
  have hne : strip (cellText (.timestamp d)) ≠ [] := List.ne_nil_of_mem hplus
  have hnone : Imports.datetimeFormats.findSome? (strptime · (strip (cellText (.timestamp d)))) = none := by
    rw [List.findSome?_eq_none_iff]
    intro format hformat
    refine strptime_plus (fun c hc => ?_) hplus
    rcases List.mem_cons.mp hformat with rfl | hformat
    · simp only [Imports.dateFormat, List.mem_append, List.mem_cons, List.not_mem_nil, or_false, reduceCtorEq,
        Directive.literal.injEq, false_or] at hc
      rcases hc with (rfl | rfl) | rfl | rfl | rfl <;> decide
    · obtain rfl := List.mem_singleton.mp hformat
      simp only [Imports.dateFormat, List.mem_append, List.mem_cons, List.not_mem_nil, or_false, reduceCtorEq,
        Directive.literal.injEq, false_or] at hc
      rcases hc with (rfl | rfl) | rfl | rfl <;> decide
  refine ⟨.notADatetime (strip (cellText (.timestamp d))), ?_⟩
  simp only [Imports.convertValue, if_neg hne, Imports.convertStripped, hnone]

/-- The empty object is read as itself, not as the empty list that would be stored as it. -/
theorem convertValue_emptyObject :
    Imports.convertValue "\x7b\x7d".toList .json = .ok (.json (.dict [])) := rfl

theorem not_returned_document (hplain : StoresPlain sv) {s : List Char}
    (hdata : c.dataType = .json) : ¬ Returned sv t c (some (.document s)) := by
  rintro ⟨p, hconvert, hstore⟩
  have htext : exportedText (some (.document s)) = s := rfl
  have htype : (t.physicalColumn c).type = .jsonb := by
    rw [DBTable.physicalColumn, hdata]
    rfl
  rw [htext, hdata] at hconvert
  obtain ⟨raw, rfl⟩ | ⟨rfl, rfl⟩ := hplain.source _ _ _ htype hstore
  case inr =>
    rw [convertValue_emptyObject] at hconvert
    cases hconvert
  unfold Imports.convertValue at hconvert
  rw [hplain.trimmed _ _ _ htype hstore] at hconvert
  by_cases hs : s = []
  · rw [if_pos hs] at hconvert
    cases hconvert
  · simp only [if_neg hs, Imports.convertStripped] at hconvert
    cases hloads : Json.loads s with
    | none =>
      rw [hloads] at hconvert
      cases hconvert
    | some value =>
      rw [hloads] at hconvert
      cases value with
      | str value =>
        -- the text that is sent would have to be a document that reads as itself
        obtain rfl : value = raw := Imports.Param.str.inj (Except.ok.inj hconvert)
        have hself := hplain.string _ _ _ _ htype hstore hloads
        exact Nat.lt_irrefl _ (Json.loads_str_length hself)
      | null | bool b | int n | float l | list items | dict members => cases hconvert

theorem not_mem_strip {x : Char} {s : List Char} (h : x ∉ s) : x ∉ strip s := by
  intro hx
  have hdrop := (List.dropWhile_suffix isSpace).subset (List.mem_reverse.mp hx)
  exact h ((List.dropWhile_suffix isSpace).subset (List.mem_reverse.mp hdrop))

theorem length_strip_le (s : List Char) : (strip s).length ≤ s.length := by
  rw [strip, List.length_reverse]
  have hfirst := (List.dropWhile_suffix isSpace (l := s)).length_le
  have hsecond := (List.dropWhile_suffix isSpace (l := (s.dropWhile isSpace).reverse)).length_le
  rw [List.length_reverse] at hsecond
  omega

theorem contains_strip {T : SqlType} {s : List Char} (h : T.Contains (.text s)) : T.Contains (.text (strip s)) := by
  cases T with
  | text => exact not_mem_strip h
  | varchar n => exact ⟨not_mem_strip h.1, Nat.le_trans (length_strip_le s) h.2⟩
  | _ => exact h.elim

theorem convertValue_text {T : DataType} (hT : T = .text ∨ T = .varchar) (s : List Char) :
    Imports.convertValue s T = .ok (if strip s = [] then .none else .str (strip s)) := by
  unfold Imports.convertValue
  by_cases hs : strip s = []
  · simp only [hs, if_true]
  · simp only [hs, if_false]
    rcases hT with rfl | rfl <;> rfl

theorem returned_text_iff (hsv : sv.StoresCells) {s : List Char} (h : (t.physicalColumn c).type.Contains (.text s)) :
    Returned sv t c (some (.text s)) ↔ s ≠ [] ∧ strip s = s := by
  have hT : c.dataType = .text ∨ c.dataType = .varchar := by
    have htype : (sqlType c.dataType c.maxLength c.precision c.scale).Contains (.text s) := h
    cases hdata : c.dataType with
    | text => exact .inl rfl
    | varchar => exact .inr rfl
    | _ =>
      rw [hdata] at htype
      exact htype.elim
  have hconvert := convertValue_text hT s
  have hagain := hsv.again _ _ _ (contains_strip h) rfl
  constructor
  · rintro ⟨p, hp, hstore⟩
    obtain rfl := Except.ok.inj (hconvert.symm.trans hp)
    by_cases hs : strip s = []
    · rw [if_pos hs, hsv.null] at hstore
      cases hstore
    · rw [if_neg hs, hagain] at hstore
      have heq : strip s = s := Cell.text.inj (Option.some.inj (Option.some.inj hstore))
      exact ⟨fun hnil => hs (by rw [hnil]; rfl), heq⟩
  · rintro ⟨hne, hstrip⟩
    rw [hstrip] at hconvert hagain
    rw [if_neg hne] at hconvert
    exact ⟨.str s, hconvert, hagain⟩

/-- A cell whose text the reader of CSV takes comes back exactly if its value does. -/
theorem returned_iff (hsv : sv.StoresCells) (hplain : StoresPlain sv) {v : Option Cell}
    (h : ∀ w, v = some w → (t.physicalColumn c).type.Contains w)
    (hshort : (exportedText v).length ≤ Csv.fieldLimit) :
    Returned sv t c v ↔ ∀ w, v = some w → ComesBack w := by
  cases v with
  | none =>
    refine iff_of_true ⟨.none, rfl, hsv.null _⟩ fun w hw => ?_
    cases hw
  | some w =>
    have hcontains := h w rfl
    have htype : (sqlType c.dataType c.maxLength c.precision c.scale).Contains w := hcontains
    have hback : (∀ w', some w = some w' → ComesBack w') ↔ ComesBack w :=
      ⟨fun hall => hall w rfl, fun hw w' heq => Option.some.inj heq ▸ hw⟩
    rw [hback]
    by_cases hw : ComesBack w
    · refine iff_of_true ?_ hw
      obtain ⟨-, p, hconvert, hparam⟩ := converted_of_comesBack hcontains hw
      exact ⟨p, hconvert, hsv.again _ _ _ hcontains hparam⟩
    · refine iff_of_false ?_ hw
      cases w with
      | timestamp d =>
        rintro ⟨p, hconvert, -⟩
        cases hdata : c.dataType with
        | datetime =>
          obtain ⟨e, he⟩ := convertValue_timestamp d
          rw [hdata] at hconvert
          have htext : exportedText (some (.timestamp d)) = cellText (.timestamp d) := rfl
          rw [htext, he] at hconvert
          cases hconvert
        | _ =>
          rw [hdata] at htype
          exact htype.elim
      | document s =>
        cases hdata : c.dataType with
        | json => exact not_returned_document hplain hdata
        | _ =>
          rw [hdata] at htype
          exact htype.elim
      | text s =>
        intro hreturned
        obtain ⟨hne, hstrip⟩ := (returned_text_iff hsv hcontains).mp hreturned
        exact hw ⟨hne, hstrip, hshort⟩
      | integer n | decimal d | boolean b | date d | uuid n => exact absurd trivial hw

end Cell

/-! ## Rows -/

section Rows

variable {sv : Server Cell} {t : DBTable} {columns : List DBColumn}

theorem rowParams_eq_ok {c : DBColumn} {raw : List Char} {record : Csv.Record} {params : List Imports.Param} :
    rowParams (c :: columns) (raw :: record) = .ok params ↔
      ∃ p rest, Imports.convertValue raw c.dataType = .ok p ∧ rowParams columns record = .ok rest ∧
        params = p :: rest := by
  rw [rowParams]
  cases Imports.convertValue raw c.dataType with
  | error e => simp
  | ok p =>
    cases rowParams columns record with
    | error e => simp [Except.map]
    | ok rest => simp [Except.map, eq_comm]

theorem insertedRow_eq_ok {c : DBColumn} {p : Imports.Param} {params : List Imports.Param}
    {values : List (Option Cell)} : insertedRow sv t (c :: columns) (p :: params) = .ok values ↔
      ∃ v rest, sv.store (t.physicalColumn c) (.plain p) = some v ∧ insertedRow sv t columns params = .ok rest ∧
        values = v :: rest := by
  unfold insertedRow
  rw [List.zip_cons_cons, List.mapM_cons]
  cases sv.store (t.physicalColumn c) (.plain p) with
  | none => simp
  | some v =>
    cases (columns.zip params).mapM fun p => sv.store (t.physicalColumn p.1) (.plain p.2) with
    | none => simp
    | some rest => simp [eq_comm]

/-- A row comes back where each of its cells does. -/
theorem restoreRow_iff (f : DBColumn → Option Cell) :
    restoreRow sv t columns (columns.map fun c => exportedText (f c)) = .ok (columns.map f) ↔
      ∀ c ∈ columns, Returned sv t c (f c) := by
  have hbind : ∀ columns : List DBColumn,
      restoreRow sv t columns (columns.map fun c => exportedText (f c)) = .ok (columns.map f) ↔
        ∃ params, rowParams columns (columns.map fun c => exportedText (f c)) = .ok params ∧
          insertedRow sv t columns params = .ok (columns.map f) := by
    intro columns
    unfold restoreRow
    cases rowParams columns (columns.map fun c => exportedText (f c)) with
    | error e => simp [bind, Except.bind]
    | ok params => simp [bind, Except.bind]
  rw [hbind]
  induction columns with
  | nil => exact iff_of_true ⟨[], rfl, rfl⟩ (List.forall_mem_nil _)
  | cons c columns ih =>
    simp only [List.forall_mem_cons, List.map_cons, rowParams_eq_ok]
    constructor
    · rintro ⟨_, ⟨p, rest, hconvert, hparams, rfl⟩, hinserted⟩
      obtain ⟨v, values, hstore, hrest, hvalues⟩ := insertedRow_eq_ok.mp hinserted
      obtain ⟨rfl, rfl⟩ := List.cons.inj hvalues
      exact ⟨⟨p, hconvert, hstore⟩, ih.mp ⟨rest, hparams, hrest⟩⟩
    · rintro ⟨⟨p, hconvert, hstore⟩, hcells⟩
      obtain ⟨rest, hparams, hrest⟩ := ih.mpr hcells
      exact ⟨_, ⟨p, rest, hconvert, hparams, rfl⟩, insertedRow_eq_ok.mpr ⟨_, _, hstore, hrest, rfl⟩⟩

theorem mapM_map_eq_ok {α β γ ε : Type} {f : α → β} {g : β → Except ε γ} {h : α → γ} {items : List α} :
    (items.map f).mapM g = .ok (items.map h) ↔ ∀ a ∈ items, g (f a) = .ok (h a) := by
  induction items with
  | nil => exact iff_of_true rfl (List.forall_mem_nil _)
  | cons a items ih =>
    rw [List.forall_mem_cons, ← ih, List.map_cons, List.mapM_cons, List.map_cons]
    cases g (f a) with
    | error e => simp [bind, Except.bind]
    | ok b =>
      cases (items.map f).mapM g with
      | error e => simp [bind, Except.bind]
      | ok bs => simp [bind, Except.bind, pure, Except.pure]

theorem columnByName_eq_ok (hnames : ∀ c ∈ columns, ∀ c' ∈ columns, c.name = c'.name → c = c') {c : DBColumn}
    (hc : c ∈ columns) : columnByName columns c.name.toList = .ok c := by
  unfold columnByName
  cases hfind : columns.reverse.find? fun c' => c'.name.toList == c.name.toList with
  | none =>
    have hnone := List.find?_eq_none.mp hfind c (List.mem_reverse.mpr hc)
    exact absurd (beq_self_eq_true _) hnone
  | some c' =>
    have hfound := List.find?_some hfind
    have hname : c'.name = c.name := String.toList_inj.mp (eq_of_beq hfound)
    have hmem := List.mem_reverse.mp (List.mem_of_find?_eq_some hfind)
    rw [hnames c' hmem c hc hname]

theorem cellRecords_eq (V : ValueType Cell) (rows : List (Row Cell)) : cellRecords V columns rows =
    (columns.map fun c => c.name.toList) ::
      (orderById rows).map fun r => columns.map fun c => exportedText (r.value V c.name) := by
  simp only [cellRecords, iterExportRows, List.map_map]
  rfl

/-- A table comes back where its records are read and its cells are. -/
theorem rowsRoundTrip_iff_cells (hnames : ∀ c ∈ columns, ∀ c' ∈ columns, c.name = c'.name → c = c')
    (rows : List (Row Cell)) : RowsRoundTrip sv t columns rows ↔
      (∀ record ∈ cellRecords sv.toValueType columns rows, ∀ field ∈ record, field.length ≤ Csv.fieldLimit) ∧
        ∀ r ∈ rows, ∀ c ∈ columns, Returned sv t c (r.value sv.toValueType c.name) := by
  unfold RowsRoundTrip restoreRows
  rw [decodeUtf8_utf8Encode]
  dsimp only
  by_cases hshort : ∀ record ∈ cellRecords sv.toValueType columns rows, ∀ field ∈ record,
      field.length ≤ Csv.fieldLimit
  · rw [and_iff_right hshort, Csv.readRecords_recordsText hshort, cellRecords_eq]
    have hheader : (columns.map fun c => c.name.toList).mapM (columnByName columns) = .ok columns := by
      have hmap := mapM_map_eq_ok.mpr fun c hc => columnByName_eq_ok hnames hc
      rwa [List.map_id'] at hmap
    dsimp only
    rw [hheader]
    have hrows : ((orderById rows).map fun r => columns.map fun c =>
        exportedText (r.value sv.toValueType c.name)).mapM (restoreRow sv t columns) =
          .ok ((orderById rows).map fun r => columns.map fun c => r.value sv.toValueType c.name) ↔
        ∀ r ∈ rows, ∀ c ∈ columns, Returned sv t c (r.value sv.toValueType c.name) := by
      rw [mapM_map_eq_ok]
      simp only [restoreRow_iff, mem_orderById]
    have hended : ∀ x : Except RestoreRowsError (List (List (Option Cell))), (x >>= fun values => .ok values) = x := by
      intro x
      cases x with
      | error e => rfl
      | ok values => rfl
    rw [← hrows]
    exact iff_of_eq (congrArg (· = _) (hended _))
  · have hlong : ∃ record ∈ cellRecords sv.toValueType columns rows, ∃ field ∈ record,
        Csv.fieldLimit < field.length := by
      push Not at hshort
      exact hshort
    have hending := Csv.readRecords_recordsText_long (ε := Empty) hlong
    refine iff_of_false (fun h => ?_) fun h => hshort h.1
    generalize Csv.readRecords Csv.excel (none : Option Empty) Csv.Reader.fresh (Csv.stringLines []
      (Csv.recordsText (cellRecords sv.toValueType columns rows))) = read at h hending
    obtain ⟨records, ending⟩ := read
    dsimp only at hending h
    subst hending
    cases records with
    | nil => cases h
    | cons header records =>
      dsimp only at h
      cases hheader : header.mapM (columnByName columns) with
      | error e =>
        rw [hheader] at h
        cases h
      | ok targets =>
        rw [hheader] at h
        cases hvalues : records.mapM (restoreRow sv t targets) with
        | error e =>
          simp only [bind, Except.bind, hvalues] at h
          cases h
        | ok values =>
          simp only [bind, Except.bind, hvalues] at h
          cases h

end Rows

/-! ## Tables of the services -/

theorem length_of_isIdentifier {name : String} (h : isIdentifier name = true) : name.toList.length ≤ 63 := by
  unfold isIdentifier at h
  cases hname : name.toList with
  | nil => decide
  | cons c cs =>
    rw [hname] at h
    simp only [Bool.and_eq_true, decide_eq_true_eq] at h
    have htail := h.1.2
    rw [List.length_cons]
    omega

theorem columnDdl_isIdentifier {t : DBTable} {spec : ColumnSpec} {x : PhysicalColumn}
    (h : columnDdl t spec = .ok x) : isIdentifier spec.name = true := by
  by_contra hname
  have hinvalid : ∃ e, validateColumnName spec.name = .error e := by
    unfold validateColumnName validateIdentifier
    rw [if_neg hname]
    exact ⟨_, rfl⟩
  obtain ⟨e, he⟩ := hinvalid
  unfold columnDdl at h
  rw [he] at h
  cases h

theorem length_name_of_run {s : State} (as : List Action) (hcat : s.catalog = Catalog.empty)
    (hten : s.tenant = Tenant.empty) : ∀ c ∈ (run step s as).catalog.columns, c.name.toList.length ≤ 63 :=
  columns_of_run (P := fun c => c.name.toList.length ≤ 63) (fun _ => (by decide : "id".toList.length ≤ 63))
    (fun _ _ _ _ hspec => length_of_isIdentifier (columnDdl_isIdentifier hspec)) hcat hten as

/-- The rows of a table come back exactly if each of their values is one that does. -/
theorem rowsRoundTrip_iff (s : State) (as : List Action) (hcat : s.catalog = Catalog.empty)
    (hten : s.tenant = Tenant.empty) (source t : DBTable) (sv : Server Cell) (hsv : sv.StoresCells)
    (hplain : StoresPlain sv) (rows : List (Row Cell))
    (hcontains : ∀ r ∈ rows, ∀ c ∈ (run step s as).catalog.columnsOf source, ∀ v,
      r.value sv.toValueType c.name = some v → (t.physicalColumn c).type.Contains v) :
    RowsRoundTrip sv t ((run step s as).catalog.columnsOf source) rows ↔
      ∀ r ∈ rows, ∀ c ∈ (run step s as).catalog.columnsOf source, ∀ v,
        r.value sv.toValueType c.name = some v → ComesBack v := by
  have hheader : ∀ c ∈ (run step s as).catalog.columnsOf source, c.name.toList.length ≤ Csv.fieldLimit := by
    intro c hc
    have hname := length_name_of_run as hcat hten c (List.mem_filter.mp hc).1
    exact Nat.le_trans hname (by decide)
  rw [rowsRoundTrip_iff_cells (names_of_run hcat hten as source), cellRecords_eq]
  constructor
  · rintro ⟨hshort, hcells⟩ r hr c hc
    have hfield : (exportedText (r.value sv.toValueType c.name)).length ≤ Csv.fieldLimit :=
      hshort _ (List.mem_cons_of_mem _ (List.mem_map_of_mem (mem_orderById.mpr hr))) _ (List.mem_map_of_mem hc)
    exact (returned_iff hsv hplain (hcontains r hr c hc) hfield).mp (hcells r hr c hc)
  · intro hback
    have hfield : ∀ r ∈ rows, ∀ c ∈ (run step s as).catalog.columnsOf source,
        (exportedText (r.value sv.toValueType c.name)).length ≤ Csv.fieldLimit := by
      intro r hr c hc
      cases hv : r.value sv.toValueType c.name with
      | none => exact Nat.zero_le _
      | some v => exact (converted_of_comesBack (hcontains r hr c hc v hv) (hback r hr c hc v hv)).1.short
    refine ⟨?_, fun r hr c hc => ?_⟩
    · intro record hrecord field hmem
      rcases List.mem_cons.mp hrecord with rfl | hrecord
      · obtain ⟨c, hc, rfl⟩ := List.mem_map.mp hmem
        exact hheader c hc
      · obtain ⟨r, hr, rfl⟩ := List.mem_map.mp hrecord
        obtain ⟨c, hc, rfl⟩ := List.mem_map.mp hmem
        exact hfield r (mem_orderById.mp hr) c hc
    · exact (returned_iff hsv hplain (hcontains r hr c hc) (hfield r hr c hc)).mpr (hback r hr c hc)

theorem cellServer_storesPlain : StoresPlain cellServer := by
  have hsource : ∀ c p s, cellServer.store c (.plain p) = some (some (.document s)) →
      p = .json (.list []) ∧ s = "\x7b\x7d".toList := by
    intro c p s hstore
    cases p with
    | str raw =>
      rw [cellServer_store_str] at hstore
      by_cases htype : c.type = .uuid
      · rw [if_pos htype] at hstore
        cases hread : parseUuid? raw with
        | none =>
          rw [hread] at hstore
          cases hstore
        | some n =>
          rw [hread] at hstore
          cases hstore
      · rw [if_neg htype] at hstore
        cases hstore
    | json value =>
      cases value with
      | list items =>
        cases items with
        | nil =>
          rw [cellServer_store_nil] at hstore
          by_cases htype : c.type = .jsonb
          · rw [if_pos htype] at hstore
            exact ⟨rfl, (Cell.document.inj (Option.some.inj (Option.some.inj hstore))).symm⟩
          · rw [if_neg htype] at hstore
            cases hstore
        | cons item items => cases hstore
      | null | bool b | int n | float l | str s | dict members => cases hstore
    | none | int n | decimal d | bool b | date d | datetime d => cases hstore
  refine ⟨fun c p s _ h => .inr (hsource c p s h), fun c raw s _ _ h => ?_, fun c p s _ h => ?_⟩
  · cases (hsource c _ s h).1
  · rw [(hsource c p s h).2]
    decide

/-- A note with the title. -/
def note (title : List Char) : Row Cell := ⟨1, [("title", .text title)]⟩

theorem contains_note {title : List Char} (htitle : '\x00' ∉ title) :
    ∀ r ∈ [note title], ∀ c ∈ (run step emptyProject noteTable).catalog.columnsOf noteRow, ∀ v,
      r.value cellServer.toValueType c.name = some v → (noteRow.physicalColumn c).type.Contains v := by
  have hcolumns : ∀ {c : DBColumn}, c ∈ (run step emptyProject noteTable).catalog.columnsOf noteRow →
      c.name = "id" ∧ c.dataType = .uuid ∨ c.name = "title" ∧ c.dataType = .text := by decide
  intro r hr c hc v hv
  obtain rfl := List.mem_singleton.mp hr
  rcases hcolumns hc with ⟨hname, htype⟩ | ⟨hname, htype⟩
  · rw [hname] at hv
    rw [DBTable.physicalColumn, htype, ← Option.some.inj hv]
    exact show 1 < Nat.pow 16 32 by decide
  · rw [hname] at hv
    rw [DBTable.physicalColumn, htype, ← Option.some.inj hv]
    exact htitle

theorem rowsRoundTrip_iff_notes :
    RowsRoundTrip cellServer noteRow ((run step emptyProject noteTable).catalog.columnsOf noteRow)
        [note "to do".toList] ↔
      ∀ r ∈ [note "to do".toList], ∀ c ∈ (run step emptyProject noteTable).catalog.columnsOf noteRow, ∀ v,
        r.value cellServer.toValueType c.name = some v → ComesBack v :=
  rowsRoundTrip_iff emptyProject noteTable rfl rfl noteRow noteRow cellServer cellServer_storesCells
    cellServer_storesPlain _ (contains_note (by decide))

/-- The empty title is NULL in the restored table. -/
theorem not_rowsRoundTrip_empty :
    (∀ r ∈ [note []], ∀ c ∈ (run step emptyProject noteTable).catalog.columnsOf noteRow, ∀ v,
        r.value cellServer.toValueType c.name = some v → (noteRow.physicalColumn c).type.Contains v) ∧
      ¬ RowsRoundTrip cellServer noteRow ((run step emptyProject noteTable).catalog.columnsOf noteRow) [note []] := by
  refine ⟨contains_note List.not_mem_nil, fun hback => ?_⟩
  have htitle : ∃ c ∈ (run step emptyProject noteTable).catalog.columnsOf noteRow,
      c.name = "title" ∧ c.dataType = .text := by decide
  obtain ⟨c, hc, hname, htype⟩ := htitle
  have hcells := ((rowsRoundTrip_iff_cells (names_of_run rfl rfl _ _) _).mp hback).2
  have hcell := hcells _ (List.mem_singleton_self _) c hc
  have hvalue : (note []).value cellServer.toValueType c.name = some (.text []) := by
    rw [hname]
    rfl
  rw [hvalue] at hcell
  have htext : (noteRow.physicalColumn c).type.Contains (.text []) := by
    rw [DBTable.physicalColumn, htype]
    exact List.not_mem_nil
  exact ((returned_text_iff cellServer_storesCells htext).mp hcell).1 rfl

end Exports
