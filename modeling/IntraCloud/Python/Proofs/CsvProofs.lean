import IntraCloud.Python.Csv
import Mathlib.Data.List.Basic
import Mathlib.Tactic.SplitIfs

/-!
# Reading what was written

`csv.reader` over the lines of a text is a machine over its characters, and that machine gives back the
records `csv.writer` wrote, unless a field exceeds the limit.
-/

namespace Python.Csv

variable {ε : Type}

/-! ## From lines to characters -/

/-- The characters of a part of a line. -/
def Reader.feedChars (d : Dialect) (r : Reader) : List Char → Except Error Reader
  | [] => .ok r
  | c :: cs =>
    match r.processChar d (some c) with
    | .error e => .error e
    | .ok r => r.feedChars d cs

theorem feed_eq (d : Dialect) (r : Reader) (cs : List Char) :
    r.feed d cs =
      match r.feedChars d cs with
      | .error e => .error e
      | .ok r => r.processChar d none := by
  induction cs generalizing r with
  | nil => rfl
  | cons c cs ih =>
    simp only [Reader.feed, Reader.feedChars]
    cases r.processChar d (some c) with
    | error e => rfl
    | ok r => exact ih r

theorem feedChars_append (d : Dialect) (r : Reader) (cs cs' : List Char) :
    r.feedChars d (cs ++ cs') =
      match r.feedChars d cs with
      | .error e => .error e
      | .ok r => r.feedChars d cs' := by
  induction cs generalizing r with
  | nil => rfl
  | cons c cs ih =>
    simp only [List.cons_append, Reader.feedChars]
    cases r.processChar d (some c) with
    | error e => rfl
    | ok r => exact ih r

/-- One more character. -/
theorem feedChars_concat {d : Dialect} {r r' : Reader} {cs : List Char} (h : r.feedChars d cs = .ok r')
    (c : Char) : r.feedChars d (cs ++ [c]) = r'.processChar d (some c) := by
  rw [feedChars_append, h]
  simp only [Reader.feedChars]
  cases r'.processChar d (some c) <;> rfl

/-- The end of a line, and then the rest. -/
def endLine (d : Dialect) (r : Reader) (rest : Reader → List Record × Option (Sum Error ε)) :
    List Record × Option (Sum Error ε) :=
  match r.processChar d none with
  | .error e => ([], some (.inl e))
  | .ok r =>
    if r.state = .startRecord then (r.fields :: (rest Reader.fresh).1, (rest Reader.fresh).2) else rest r

/-- The records of a text from the middle of a line; `begun` says that the line has characters already. -/
def readText (d : Dialect) (r : Reader) (begun : Bool) :
    List Char → List Record × Option (Sum Error ε)
  | [] =>
    if begun then endLine d r fun r => readRecords d none r [] else readRecords d none r []
  | c :: s =>
    match r.processChar d (some c) with
    | .error e => ([], some (.inl e))
    | .ok r => if c = '\n' then endLine d r fun r => readText d r false s else readText d r true s

theorem readRecords_cons (d : Dialect) (r : Reader) (line : List Char) (lines : List (List Char)) :
    readRecords (ε := ε) d none r (line :: lines) =
      match r.feedChars d line with
      | .error e => ([], some (.inl e))
      | .ok r => endLine d r fun r => readRecords d none r lines := by
  rw [readRecords, feed_eq]
  cases r.feedChars d line with
  | error e => rfl
  | ok r =>
    cases hend : r.processChar d none with
    | error e => simp only [endLine, hend]
    | ok r => simp only [endLine, hend]

theorem stringLines_head (line text : List Char) (h : line ≠ []) :
    ∃ more lines, stringLines line text = (line ++ more) :: lines := by
  induction text generalizing line with
  | nil => exact ⟨[], [], by rw [stringLines, if_neg h, List.append_nil]⟩
  | cons c s ih =>
    rw [stringLines]
    split
    · exact ⟨[c], _, rfl⟩
    · obtain ⟨more, lines, heq⟩ := ih (line ++ [c]) (List.append_ne_nil_of_right_ne_nil _ (List.cons_ne_nil _ _))
      exact ⟨c :: more, lines, by rw [heq, List.append_assoc]; rfl⟩

/-- The reader over the lines of a text. -/
theorem readRecords_stringLines (d : Dialect) (text line : List Char) {r r' : Reader}
    (h : r.feedChars d line = .ok r') :
    readRecords (ε := ε) d none r (stringLines line text) = readText d r' (!line.isEmpty) text := by
  induction text generalizing line r r' with
  | nil =>
    cases line with
    | nil =>
      obtain rfl := Except.ok.inj h
      rfl
    | cons b bs =>
      rw [stringLines, if_neg (List.cons_ne_nil b bs), readRecords_cons, h]
      rfl
  | cons c s ih =>
    have hconcat := feedChars_concat h c
    have hne : line ++ [c] ≠ [] := List.append_ne_nil_of_right_ne_nil _ (List.cons_ne_nil _ _)
    simp only [stringLines, readText]
    by_cases hc : c = '\n'
    · have hrest : (fun r => readRecords (ε := ε) d none r (stringLines [] s)) =
          fun r => readText d r false s := funext fun r => ih [] (rfl : r.feedChars d [] = .ok r)
      rw [if_pos hc, readRecords_cons, hconcat, hrest]
      simp only [if_pos hc]
    · rw [if_neg hc]
      simp only [if_neg hc]
      cases hnext : r'.processChar d (some c) with
      | error e =>
        obtain ⟨more, lines, hlines⟩ := stringLines_head (line ++ [c]) s hne
        rw [hlines, readRecords_cons, feedChars_append, hconcat, hnext]
      | ok r'' =>
        have hbegun : (!(line ++ [c]).isEmpty) = true := by
          rw [List.isEmpty_eq_false_iff.mpr hne]
          rfl
        rw [ih (line ++ [c]) (hconcat.trans hnext), hbegun]

/-! ## A field -/

/-- A character that is no delimiter, quote or line break. -/
def Plain (c : Char) : Prop := c ≠ ',' ∧ c ≠ '"' ∧ c ≠ '\n' ∧ c ≠ '\r'

theorem isNewline_of_plain {c : Char} (h : Plain c) : isNewline c = false := by
  simp only [isNewline, beq_eq_false_iff_ne.mpr h.2.2.1, beq_eq_false_iff_ne.mpr h.2.2.2, Bool.or_self]

theorem plain_of_not_needsQuotes {field : List Char} (h : needsQuotes field = false) :
    ∀ c ∈ field, Plain c := by
  intro c hc
  have hfalse := List.any_eq_false.mp h c hc
  simp only [Bool.or_eq_true, beq_iff_eq, not_or] at hfalse
  obtain ⟨⟨⟨hcomma, hquote⟩, hfeed⟩, hreturn⟩ := hfalse
  exact ⟨hcomma, hquote, hfeed, hreturn⟩

theorem addChar_of_lt {r : Reader} (c : Char) (state : ParseState) (h : r.field.length < fieldLimit) :
    r.addChar c state = .ok { r with field := r.field ++ [c], state } := if_neg (by omega)

theorem addChar_of_le {r : Reader} (c : Char) (state : ParseState) (h : fieldLimit ≤ r.field.length) :
    r.addChar c state = .error .fieldLimit := if_pos h

/-- A plain character in a field. -/
theorem readText_plain {c : Char} (hc : Plain c) (field : List Char) (fields : Record) (begun : Bool)
    (s : List Char) (h : field.length < fieldLimit) :
    readText (ε := ε) excel ⟨.inField, field, fields⟩ begun (c :: s) =
      readText excel ⟨.inField, field ++ [c], fields⟩ true s := by
  have hstep : Reader.processChar excel ⟨.inField, field, fields⟩ (some c) =
      .ok ⟨.inField, field ++ [c], fields⟩ := by
    have hdelimiter : ¬ c = excel.delimiter := hc.1
    simp only [Reader.processChar, isNewline_of_plain hc, Bool.false_eq_true, if_false, if_neg hdelimiter]
    exact addChar_of_lt c .inField h
  rw [readText, hstep]
  simp only [if_neg hc.2.2.1]

/-- Plain characters in a field. -/
theorem readText_plains {cs : List Char} (hcs : ∀ c ∈ cs, Plain c) (field : List Char) (fields : Record)
    (s : List Char) (h : field.length + cs.length ≤ fieldLimit) :
    readText (ε := ε) excel ⟨.inField, field, fields⟩ true (cs ++ s) =
      readText excel ⟨.inField, field ++ cs, fields⟩ true s := by
  induction cs generalizing field with
  | nil => rw [List.nil_append, List.append_nil]
  | cons c cs ih =>
    obtain ⟨hc, hcs⟩ := List.forall_mem_cons.mp hcs
    rw [List.length_cons] at h
    have hlen : (field ++ [c]).length + cs.length ≤ fieldLimit := by
      rw [List.length_append, List.length_singleton]
      omega
    rw [List.cons_append, readText_plain hc field fields true _ (by omega), ih hcs _ hlen, List.append_assoc]
    rfl

/-- The first character of a field, where it is plain. -/
theorem readText_start_plain {state : ParseState} (hstate : state = .startRecord ∨ state = .startField)
    {c : Char} (hc : Plain c) (fields : Record) (begun : Bool) (s : List Char) :
    readText (ε := ε) excel ⟨state, [], fields⟩ begun (c :: s) =
      readText excel ⟨.inField, [c], fields⟩ true s := by
  have hlimit : ([] : List Char).length < fieldLimit := by decide
  have hstep : Reader.processChar excel ⟨state, [], fields⟩ (some c) = .ok ⟨.inField, [c], fields⟩ := by
    have hdelimiter : ¬ c = excel.delimiter := hc.1
    have hadd := addChar_of_lt (r := ⟨state, [], fields⟩) c .inField hlimit
    rcases hstate with rfl | rfl
    · simp only [Reader.processChar, Reader.startField, isNewline_of_plain hc, Bool.false_eq_true, if_false,
        if_neg hc.2.1, if_neg hdelimiter]
      exact hadd
    · simp only [Reader.processChar, Reader.startField, isNewline_of_plain hc, Bool.false_eq_true, if_false,
        if_neg hc.2.1, if_neg hdelimiter]
      exact hadd
  rw [readText, hstep]
  simp only [if_neg hc.2.2.1]

/-- A step that is no line feed. -/
theorem readText_step {d : Dialect} {r r' : Reader} {c : Char} (hc : c ≠ '\n')
    (h : r.processChar d (some c) = .ok r') (begun : Bool) (s : List Char) :
    readText (ε := ε) d r begun (c :: s) = readText d r' true s := by
  rw [readText, h]
  simp only [if_neg hc]

/-- The rest of a quoted field, up to its closing quote. -/
theorem readText_quoted (cs field : List Char) (fields : Record) (begun : Bool) (s : List Char)
    (h : field.length + cs.length ≤ fieldLimit) :
    readText (ε := ε) excel ⟨.inQuotedField, field, fields⟩ begun (cs.flatMap quoteChar ++ '"' :: s) =
      readText excel ⟨.quoteInQuotedField, field ++ cs, fields⟩ true s := by
  have hquote : ∀ field : List Char, Reader.processChar excel ⟨.inQuotedField, field, fields⟩ (some '"') =
      .ok ⟨.quoteInQuotedField, field, fields⟩ := fun _ => rfl
  induction cs generalizing field begun with
  | nil =>
    rw [List.append_nil]
    exact readText_step (by decide) (hquote field) begun s
  | cons c cs ih =>
    rw [List.length_cons] at h
    have hlen : (field ++ [c]).length + cs.length ≤ fieldLimit := by
      rw [List.length_append, List.length_singleton]
      omega
    have hfield : field ++ c :: cs = field ++ [c] ++ cs := List.append_cons field c cs
    rw [List.flatMap_cons, List.append_assoc, hfield]
    have hnext := fun begun => ih (field ++ [c]) begun hlen
    by_cases hc : c = '"'
    · -- a quote is written twice
      subst hc
      have hadd : Reader.processChar excel ⟨.quoteInQuotedField, field, fields⟩ (some '"') =
          .ok ⟨.inQuotedField, field ++ ['"'], fields⟩ :=
        addChar_of_lt (r := ⟨.quoteInQuotedField, field, fields⟩) '"' .inQuotedField (by simp only; omega)
      have hdouble : quoteChar '"' = ['"', '"'] := rfl
      rw [hdouble, List.cons_append, readText_step (by decide) (hquote field), List.cons_append,
        readText_step (by decide) hadd]
      exact hnext true
    · have hadd : Reader.processChar excel ⟨.inQuotedField, field, fields⟩ (some c) =
          .ok ⟨.inQuotedField, field ++ [c], fields⟩ := by
        simp only [Reader.processChar, if_neg hc]
        exact addChar_of_lt (r := ⟨.inQuotedField, field, fields⟩) c .inQuotedField (by simp only; omega)
      have hsingle : quoteChar c = [c] := if_neg hc
      rw [hsingle, List.singleton_append]
      by_cases hfeed : c = '\n'
      · -- the line ends inside the field
        rw [readText, hadd]
        simp only [if_pos hfeed]
        exact hnext false
      · rw [readText_step hfeed hadd]
        exact hnext true

/-- The states after the text of a field that has characters. -/
def Ended (field : List Char) (fields : Record) (r : Reader) : Prop :=
  r = ⟨.inField, field, fields⟩ ∨ r = ⟨.quoteInQuotedField, field, fields⟩

theorem readText_fieldText {state : ParseState} (hstate : state = .startRecord ∨ state = .startField)
    {field : List Char} (hne : field ≠ []) (hlen : field.length ≤ fieldLimit) (fields : Record)
    (begun : Bool) : ∃ r, Ended field fields r ∧ ∀ s,
      readText (ε := ε) excel ⟨state, [], fields⟩ begun (fieldText field ++ s) = readText excel r true s := by
  unfold fieldText
  cases hquotes : needsQuotes field with
  | true =>
    refine ⟨_, .inr rfl, fun s => ?_⟩
    have hopen : Reader.processChar excel ⟨state, [], fields⟩ (some '"') =
        .ok ⟨.inQuotedField, [], fields⟩ := by
      rcases hstate with rfl | rfl <;> rfl
    have hrest := readText_quoted (ε := ε) field [] fields true s (by rw [List.length_nil]; omega)
    rw [if_pos rfl, quoted, List.cons_append, List.cons_append, List.append_assoc,
      readText_step (by decide) hopen]
    exact hrest
  | false =>
    refine ⟨_, .inl rfl, fun s => ?_⟩
    have hplain := plain_of_not_needsQuotes hquotes
    obtain ⟨c, cs, rfl⟩ := List.exists_cons_of_ne_nil hne
    obtain ⟨hc, hcs⟩ := List.forall_mem_cons.mp hplain
    rw [List.length_cons] at hlen
    have hrest := readText_plains (ε := ε) hcs [c] fields s (by rw [List.length_singleton]; omega)
    rw [if_neg Bool.false_ne_true, List.cons_append, readText_start_plain hstate hc]
    exact hrest

/-! ## A record -/

/-- A record is there, and the rest follows. -/
def emit (fields : Record) (rest : List Record × Option (Sum Error ε)) :
    List Record × Option (Sum Error ε) := (fields :: rest.1, rest.2)

theorem readText_lineBreak (fields : Record) (begun : Bool) (s : List Char) :
    readText (ε := ε) excel ⟨.eatCrnl, [], fields⟩ begun ('\n' :: s) =
      emit fields (readText excel Reader.fresh false s) := rfl

theorem readText_comma {field : List Char} {fields : Record} {r : Reader} (h : Ended field fields r)
    (begun : Bool) (s : List Char) :
    readText (ε := ε) excel r begun (',' :: s) = readText excel ⟨.startField, [], fields ++ [field]⟩ true s := by
  rcases h with rfl | rfl
  · exact readText_step (by decide) rfl begun s
  · exact readText_step (by decide) rfl begun s

theorem readText_return {field : List Char} {fields : Record} {r : Reader} (h : Ended field fields r)
    (begun : Bool) (s : List Char) :
    readText (ε := ε) excel r begun ('\r' :: s) = readText excel ⟨.eatCrnl, [], fields ++ [field]⟩ true s := by
  rcases h with rfl | rfl
  · exact readText_step (by decide) rfl begun s
  · exact readText_step (by decide) rfl begun s

/-- A field and the delimiter after it. -/
theorem readText_field_comma {state : ParseState} (hstate : state = .startRecord ∨ state = .startField)
    {field : List Char} (hlen : field.length ≤ fieldLimit) (fields : Record) (begun : Bool)
    (s : List Char) :
    readText (ε := ε) excel ⟨state, [], fields⟩ begun (fieldText field ++ ',' :: s) =
      readText excel ⟨.startField, [], fields ++ [field]⟩ true s := by
  by_cases hne : field = []
  · subst hne
    rcases hstate with rfl | rfl
    · exact readText_step (by decide) rfl begun s
    · exact readText_step (by decide) rfl begun s
  · obtain ⟨r, hended, hread⟩ := readText_fieldText (ε := ε) hstate hne hlen fields begun
    rw [hread]
    exact readText_comma hended true s

/-- The last field and the end of the line. -/
theorem readText_field_end {state : ParseState} (hstate : state = .startRecord ∨ state = .startField)
    {field : List Char} (hne : state = .startField ∨ field ≠ []) (hlen : field.length ≤ fieldLimit)
    (fields : Record) (begun : Bool) (s : List Char) :
    readText (ε := ε) excel ⟨state, [], fields⟩ begun (fieldText field ++ '\r' :: '\n' :: s) =
      emit (fields ++ [field]) (readText excel Reader.fresh false s) := by
  by_cases hempty : field = []
  · obtain rfl := hne.resolve_right (not_not_intro hempty)
    subst hempty
    rw [← readText_lineBreak (fields ++ [[]]) true s]
    exact readText_step (by decide) rfl begun _
  · obtain ⟨r, hended, hread⟩ := readText_fieldText (ε := ε) hstate hempty hlen fields begun
    rw [hread, readText_return hended true, readText_lineBreak]

/-- The fields from some point of a record on. -/
theorem readText_joinFields {record : Record} (hrecord : record ≠ [])
    (hlen : ∀ field ∈ record, field.length ≤ fieldLimit) {state : ParseState}
    (hstate : state = .startRecord ∨ state = .startField) (hne : state = .startField ∨ record ≠ [[]])
    (fields : Record) (begun : Bool) (s : List Char) :
    readText (ε := ε) excel ⟨state, [], fields⟩ begun (joinFields record ++ '\r' :: '\n' :: s) =
      emit (fields ++ record) (readText excel Reader.fresh false s) := by
  induction record generalizing state fields begun with
  | nil => exact absurd rfl hrecord
  | cons field record ih =>
    obtain ⟨hfield, hrest⟩ := List.forall_mem_cons.mp hlen
    cases record with
    | nil =>
      have hfirst : state = .startField ∨ field ≠ [] := hne.imp_right fun h hnil => h (hnil ▸ rfl)
      exact readText_field_end hstate hfirst hfield fields begun s
    | cons next record =>
      have hstart : ParseState.startField = .startRecord ∨ ParseState.startField = .startField := .inr rfl
      have hnext := ih (List.cons_ne_nil _ _) hrest hstart (.inl rfl) (fields ++ [field]) true
      rw [joinFields, List.append_assoc, List.cons_append, readText_field_comma hstate hfield, hnext,
        ← List.append_cons]
      exact List.cons_ne_nil _ _

/-- A record as it was written. -/
theorem readText_recordText {record : Record} (hlen : ∀ field ∈ record, field.length ≤ fieldLimit)
    (s : List Char) :
    readText (ε := ε) excel Reader.fresh false (recordText record ++ s) =
      emit record (readText excel Reader.fresh false s) := by
  unfold recordText
  by_cases hsingle : record = [[]]
  · subst hsingle
    rfl
  · rw [if_neg hsingle, List.append_assoc]
    by_cases hrecord : record = []
    · subst hrecord
      rfl
    · exact readText_joinFields hrecord hlen (.inl rfl) (.inr hsingle) [] false s

/-- Reading gives back the records that were written. -/
theorem readRecords_recordsText {records : List Record}
    (hlen : ∀ record ∈ records, ∀ field ∈ record, field.length ≤ fieldLimit) :
    readRecords (ε := ε) excel none Reader.fresh (stringLines [] (recordsText records)) = (records, none) := by
  have hlines := readRecords_stringLines (ε := ε) excel (recordsText records) [] (r := Reader.fresh) rfl
  rw [hlines]
  induction records with
  | nil => rfl
  | cons record records ih =>
    obtain ⟨hrecord, hrecords⟩ := List.forall_mem_cons.mp hlen
    have hrest := ih hrecords (readRecords_stringLines _ _ _ rfl)
    have htext : recordsText (record :: records) = recordText record ++ recordsText records := rfl
    have hbegun : (!([] : List Char).isEmpty) = false := rfl
    rw [hbegun] at hrest ⊢
    rw [htext, readText_recordText hrecord, hrest]
    rfl

/-! ## A field that is too long -/

/-- What a reader comes to that takes no more characters. -/
def tooLong : List Record × Option (Sum Error ε) := ([], some (.inl .fieldLimit))

theorem readText_error {d : Dialect} {r : Reader} {c : Char} (h : r.processChar d (some c) = .error .fieldLimit)
    (begun : Bool) (s : List Char) : readText (ε := ε) d r begun (c :: s) = tooLong := by
  rw [readText, h]
  rfl

theorem readText_plains_long {cs : List Char} (hcs : ∀ c ∈ cs, Plain c) (field : List Char) (fields : Record)
    (s : List Char) (hfield : field.length ≤ fieldLimit) (h : fieldLimit < field.length + cs.length) :
    readText (ε := ε) excel ⟨.inField, field, fields⟩ true (cs ++ s) = tooLong := by
  induction cs generalizing field with
  | nil =>
    rw [List.length_nil] at h
    omega
  | cons c cs ih =>
    obtain ⟨hc, hcs⟩ := List.forall_mem_cons.mp hcs
    rw [List.length_cons] at h
    rw [List.cons_append]
    by_cases hlast : field.length < fieldLimit
    · have hlen : (field ++ [c]).length = field.length + 1 := by
        rw [List.length_append, List.length_singleton]
      rw [readText_plain hc field fields true _ hlast]
      exact ih hcs _ (by omega) (by omega)
    · refine readText_error ?_ true _
      have hdelimiter : ¬ c = excel.delimiter := hc.1
      simp only [Reader.processChar, isNewline_of_plain hc, Bool.false_eq_true, if_false, if_neg hdelimiter]
      exact addChar_of_le c .inField (Nat.le_of_not_lt hlast)

theorem readText_quoted_long (cs field : List Char) (fields : Record) (begun : Bool) (s : List Char)
    (hfield : field.length ≤ fieldLimit) (h : fieldLimit < field.length + cs.length) :
    readText (ε := ε) excel ⟨.inQuotedField, field, fields⟩ begun (cs.flatMap quoteChar ++ s) = tooLong := by
  induction cs generalizing field begun with
  | nil =>
    rw [List.length_nil] at h
    omega
  | cons c cs ih =>
    rw [List.length_cons] at h
    have hlen : (field ++ [c]).length = field.length + 1 := by
      rw [List.length_append, List.length_singleton]
    rw [List.flatMap_cons, List.append_assoc]
    by_cases hc : c = '"'
    · subst hc
      have hdouble : quoteChar '"' = ['"', '"'] := rfl
      have hquote : Reader.processChar excel ⟨.inQuotedField, field, fields⟩ (some '"') =
          .ok ⟨.quoteInQuotedField, field, fields⟩ := rfl
      rw [hdouble, List.cons_append, readText_step (by decide) hquote, List.cons_append]
      by_cases hlast : field.length < fieldLimit
      · have hadd : Reader.processChar excel ⟨.quoteInQuotedField, field, fields⟩ (some '"') =
            .ok ⟨.inQuotedField, field ++ ['"'], fields⟩ :=
          addChar_of_lt (r := ⟨.quoteInQuotedField, field, fields⟩) '"' .inQuotedField hlast
        rw [readText_step (by decide) hadd]
        exact ih _ true (by omega) (by omega)
      · have hfull : Reader.processChar excel ⟨.quoteInQuotedField, field, fields⟩ (some '"') = .error .fieldLimit :=
          addChar_of_le (r := ⟨.quoteInQuotedField, field, fields⟩) '"' .inQuotedField (Nat.le_of_not_lt hlast)
        exact readText_error hfull true _
    · have hsingle : quoteChar c = [c] := if_neg hc
      have hstep : Reader.processChar excel ⟨.inQuotedField, field, fields⟩ (some c) =
          Reader.addChar ⟨.inQuotedField, field, fields⟩ c .inQuotedField := by
        simp only [Reader.processChar, if_neg hc]
      rw [hsingle, List.singleton_append]
      by_cases hlast : field.length < fieldLimit
      · have hadd : Reader.processChar excel ⟨.inQuotedField, field, fields⟩ (some c) =
            .ok ⟨.inQuotedField, field ++ [c], fields⟩ :=
          hstep.trans (addChar_of_lt (r := ⟨.inQuotedField, field, fields⟩) c .inQuotedField hlast)
        by_cases hfeed : c = '\n'
        · rw [readText, hadd]
          simp only [if_pos hfeed]
          exact ih _ false (by omega) (by omega)
        · rw [readText_step hfeed hadd]
          exact ih _ true (by omega) (by omega)
      · exact readText_error (hstep.trans (addChar_of_le (r := ⟨.inQuotedField, field, fields⟩) c .inQuotedField
          (Nat.le_of_not_lt hlast))) begun _

theorem readText_fieldText_long {state : ParseState} (hstate : state = .startRecord ∨ state = .startField)
    {field : List Char} (h : fieldLimit < field.length) (fields : Record) (begun : Bool) (s : List Char) :
    readText (ε := ε) excel ⟨state, [], fields⟩ begun (fieldText field ++ s) = tooLong := by
  unfold fieldText
  cases hquotes : needsQuotes field with
  | true =>
    have hopen : Reader.processChar excel ⟨state, [], fields⟩ (some '"') =
        .ok ⟨.inQuotedField, [], fields⟩ := by
      rcases hstate with rfl | rfl <;> rfl
    rw [if_pos rfl, quoted, List.cons_append, List.cons_append, List.append_assoc,
      readText_step (by decide) hopen]
    exact readText_quoted_long field [] fields true _ (Nat.zero_le _) (by rw [List.length_nil]; omega)
  | false =>
    obtain ⟨c, cs, rfl⟩ := List.exists_cons_of_length_pos (Nat.lt_of_le_of_lt (Nat.zero_le _) h)
    obtain ⟨hc, hcs⟩ := List.forall_mem_cons.mp (plain_of_not_needsQuotes hquotes)
    rw [List.length_cons] at h
    rw [if_neg Bool.false_ne_true, List.cons_append, readText_start_plain hstate hc]
    exact readText_plains_long hcs [c] fields s (show 1 ≤ fieldLimit by decide) (by rw [List.length_singleton]; omega)

theorem readText_joinFields_long {record : Record} (hlong : ∃ field ∈ record, fieldLimit < field.length)
    {state : ParseState} (hstate : state = .startRecord ∨ state = .startField) (fields : Record) (begun : Bool)
    (s : List Char) :
    readText (ε := ε) excel ⟨state, [], fields⟩ begun (joinFields record ++ s) = tooLong := by
  induction record generalizing state fields begun with
  | nil =>
    obtain ⟨field, hfield, -⟩ := hlong
    cases hfield
  | cons field record ih =>
    by_cases hfirst : fieldLimit < field.length
    · cases record with
      | nil => exact readText_fieldText_long hstate hfirst fields begun s
      | cons next record =>
        rw [joinFields, List.append_assoc]
        · exact readText_fieldText_long hstate hfirst fields begun _
        · exact List.cons_ne_nil _ _
    · obtain ⟨long, hmem, hlength⟩ := hlong
      rcases List.mem_cons.mp hmem with rfl | hmem
      · exact absurd hlength hfirst
      · cases record with
        | nil => cases hmem
        | cons next record =>
          rw [joinFields, List.append_assoc, List.cons_append, readText_field_comma hstate (Nat.le_of_not_lt hfirst)]
          · exact ih ⟨long, hmem, hlength⟩ (.inr rfl) _ true
          · exact List.cons_ne_nil _ _

/-- Reading stops at a record with such a field. -/
theorem readRecords_recordsText_long {records : List Record}
    (hlong : ∃ record ∈ records, ∃ field ∈ record, fieldLimit < field.length) :
    (readRecords (ε := ε) excel none Reader.fresh (stringLines [] (recordsText records))).2 =
      some (.inl .fieldLimit) := by
  have hlines := readRecords_stringLines (ε := ε) excel (recordsText records) [] (r := Reader.fresh) rfl
  rw [hlines]
  induction records with
  | nil =>
    obtain ⟨record, hrecord, -⟩ := hlong
    cases hrecord
  | cons record records ih =>
    have htext : recordsText (record :: records) = recordText record ++ recordsText records := rfl
    have hbegun : (!([] : List Char).isEmpty) = false := rfl
    rw [hbegun, htext]
    by_cases hfirst : ∃ field ∈ record, fieldLimit < field.length
    · have hne : record ≠ [[]] := by
        rintro rfl
        obtain ⟨field, hfield, hlength⟩ := hfirst
        rw [List.mem_singleton.mp hfield] at hlength
        cases hlength
      unfold recordText
      rw [if_neg hne, List.append_assoc, Reader.fresh, readText_joinFields_long hfirst (.inl rfl)]
      rfl
    · have hshort : ∀ field ∈ record, field.length ≤ fieldLimit := fun field hfield =>
        Nat.le_of_not_lt fun hlt => hfirst ⟨field, hfield, hlt⟩
      obtain ⟨long, hmem, hlength⟩ := hlong
      rcases List.mem_cons.mp hmem with rfl | hmem
      · obtain ⟨field, hfield, hlength⟩ := hlength
        exact absurd (hshort field hfield) (by omega)
      · have hrest := ih ⟨long, hmem, hlength⟩ (readRecords_stringLines _ _ _ rfl)
        rw [readText_recordText hshort]
        exact hrest

end Python.Csv
