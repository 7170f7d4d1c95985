import IntraCloud.Imports.Inspect
import IntraCloud.Python.Proofs.LinesProofs

/-!
# When the preview shows what the import reads

The records of the sample and those of the import, taken off their files one by one: as long as a record
has no line break in a field and no byte order mark before it, both readers have the same record.
-/

namespace Imports

open Databases Python Python.Csv

/-! ## The sample -/

theorem stringLines_append (line : List Char) {t : List Char} (ht : '\n' ∉ t) (s : List Char) :
    stringLines line (t ++ '\n' :: s) = (line ++ t ++ ['\n']) :: stringLines [] s := by
  induction t generalizing line with
  | nil => rw [List.nil_append, stringLines, if_pos rfl, List.append_nil]
  | cons c t ih =>
    have hc : c ≠ '\n' := fun h => ht (h ▸ List.mem_cons_self ..)
    rw [List.cons_append, stringLines, if_neg hc, ih _ fun h => ht (List.mem_cons_of_mem _ h), List.append_assoc,
      List.append_assoc, List.singleton_append, List.append_assoc]
    rfl

theorem stringLines_last (line : List Char) {t : List Char} (ht : '\n' ∉ t) (hne : line ++ t ≠ []) :
    stringLines line t = [line ++ t] := by
  induction t generalizing line with
  | nil =>
    rw [List.append_nil] at hne ⊢
    rw [stringLines, if_neg hne]
  | cons c t ih =>
    have hc : c ≠ '\n' := fun h => ht (h ▸ List.mem_cons_self ..)
    have happend : line ++ c :: t = line ++ [c] ++ t := List.append_cons line c t
    rw [stringLines, if_neg hc, happend]
    rw [happend] at hne
    exact ih _ (fun h => ht (List.mem_cons_of_mem _ h)) hne

/-- The records are those of `csv.reader`. -/
theorem map_recordLines {ε : Type} (d : Dialect) (r : Reader) (begun lines : List (List Char)) :
    (recordLines d r begun lines).map (·.2) = (readRecords d (none : Option ε) r lines).1 := by
  induction lines generalizing r begun with
  | nil =>
    simp only [recordLines, readRecords]
    split <;> rfl
  | cons line lines ih =>
    simp only [recordLines, readRecords]
    cases r.feed d line with
    | error e => rfl
    | ok r' =>
      dsimp only
      by_cases hstate : r'.state = .startRecord
      · rw [if_pos hstate, if_pos hstate, List.map_cons, ih]
      · rw [if_neg hstate, if_neg hstate, ih]

/-- There are no more records than lines. -/
theorem length_recordLines_le (d : Dialect) (r : Reader) (begun lines : List (List Char)) :
    (recordLines d r begun lines).length ≤
      lines.length + if r.field ≠ [] ∨ r.state = .inQuotedField then 1 else 0 := by
  induction lines generalizing r begun with
  | nil =>
    rw [recordLines]
    split
    · exact Nat.le_refl _
    · exact Nat.le_refl _
  | cons line lines ih =>
    rw [recordLines]
    cases r.feed d line with
    | error e => exact Nat.zero_le _
    | ok r' =>
      dsimp only
      by_cases hstate : r'.state = .startRecord
      · rw [if_pos hstate, List.length_cons, List.length_cons]
        have hrest : (recordLines d Reader.fresh [] lines).length ≤ lines.length := ih Reader.fresh []
        omega
      · rw [if_neg hstate, List.length_cons]
        have hrest := ih r' (begun ++ [line])
        split at hrest <;> omega

/-- What a reader has read of a record is in the record. -/
theorem has_recordLines {d : Dialect} {r : Reader} (hr : r.Tidy) {x : Char} (hx : r.Has x)
    {begun lines : List (List Char)} {shown : List (List Char) × Record}
    (h : (recordLines d r begun lines).head? = some shown) : ∃ field ∈ shown.2, x ∈ field := by
  induction lines generalizing r begun with
  | nil =>
    rw [recordLines] at h
    split_ifs at h
    · obtain rfl := Option.some.inj h
      rcases hx with hx | ⟨field, hfield, hx⟩
      · exact ⟨r.field, List.mem_append_right _ (List.mem_singleton_self _), hx⟩
      · exact ⟨field, List.mem_append_left _ hfield, hx⟩
    · cases h
  | cons line lines ih =>
    rw [recordLines] at h
    cases hfeed : r.feed d line with
    | error e => rw [hfeed] at h; cases h
    | ok r' =>
      rw [hfeed] at h
      dsimp only at h
      by_cases hstate : r'.state = .startRecord
      · rw [if_pos hstate] at h
        obtain rfl := Option.some.inj h
        exact (mem_fields_of_has (tidy_feed hfeed hr) hstate).mp (has_feed hfeed hx)
      · rw [if_neg hstate] at h
        exact ih (tidy_feed hfeed hr) (has_feed hfeed hx) h

/-! ## The import -/

section Import

variable {codec : Codec} {encoding : String} {d : Dialect}

theorem decodedLines_blanks (hnil : codec encoding [] = some []) (k : Nat) (lines : List (List UInt8)) :
    decodedLines (codec encoding) none (List.replicate k [] ++ lines) =
      (List.replicate k [] ++ (decodedLines (codec encoding) none lines).1,
        (decodedLines (codec encoding) none lines).2) := by
  induction k with
  | zero => rfl
  | succ k ih =>
    rw [List.replicate_succ, List.cons_append, decodedLines, hnil]
    dsimp only
    rw [ih]
    rfl

theorem readRecords_blanks {ε : Type} (e : Option ε) (k : Nat) (lines : List (List Char)) :
    (readRecords d e Reader.fresh (List.replicate k [] ++ lines)).1 =
      List.replicate k [] ++ (readRecords d e Reader.fresh lines).1 := by
  induction k with
  | zero => rfl
  | succ k ih =>
    have hblank : Reader.fresh.feed d [] = .ok Reader.fresh := rfl
    have hstate : Reader.fresh.state = .startRecord := rfl
    rw [List.replicate_succ, List.cons_append, readRecords, hblank]
    dsimp only
    rw [if_pos hstate, ih]
    rfl

/-- A whole record on a line of the import. -/
theorem importRecords_line (hnil : codec encoding [] = some []) {bs : Bytes}
    (hbs : ∀ b ∈ bs, ¬ EndsLine b) {t : List Char} (hdecode : codec encoding bs = some t) {r : Reader}
    (hfeed : Reader.fresh.feed d t = .ok r) (hstate : r.state = .startRecord) (j : Nat) (bytes : Bytes) :
    importRecords codec encoding d (bs ++ (List.replicate j 13 ++ 10 :: bytes)) =
      r.fields :: (List.replicate (j - 1) [] ++ importRecords codec encoding d bytes) := by
  unfold importRecords
  rw [splitlines_line hbs, decodedLines, hdecode]
  dsimp only
  rw [decodedLines_blanks hnil, readRecords, hfeed]
  dsimp only
  rw [if_pos hstate, readRecords_blanks]

/-- A whole record on the last line of the import. -/
theorem importRecords_last (hnil : codec encoding [] = some []) {bs : Bytes}
    (hbs : ∀ b ∈ bs, ¬ EndsLine b) {t : List Char} (hdecode : codec encoding bs = some t) {r : Reader}
    (hfeed : Reader.fresh.feed d t = .ok r) (hstate : r.state = .startRecord) (j : Nat)
    (hne : bs ++ List.replicate j 13 ≠ []) :
    importRecords codec encoding d (bs ++ List.replicate j 13) =
      r.fields :: List.replicate (j - 1) [] := by
  have hblanks := decodedLines_blanks hnil (j - 1) []
  rw [List.append_nil] at hblanks
  unfold importRecords
  rw [splitlines_last hbs j hne, decodedLines, hdecode]
  dsimp only
  rw [hblanks, readRecords, hfeed]
  dsimp only
  rw [if_pos hstate, readRecords_blanks]
  exact congrArg (r.fields :: ·) (List.append_nil _)

/-- The last record, in a quoted field that nothing closes. -/
theorem importRecords_open {bs : Bytes} (hbs : ∀ b ∈ bs, ¬ EndsLine b) (hne : bs ≠ []) {t : List Char}
    (hdecode : codec encoding bs = some t) {r : Reader} (hfeed : Reader.fresh.feed d t = .ok r)
    (hstate : r.state ≠ .startRecord) (hopen : r.field ≠ [] ∨ r.state = .inQuotedField) :
    importRecords codec encoding d bs = [(r.saveField .startRecord).fields] := by
  have hlast : splitlines bs = [bs] := by
    have hsplit := splitlines_last hbs 0 (by rw [List.replicate_zero, List.append_nil]; exact hne)
    rwa [List.replicate_zero, List.append_nil] at hsplit
  unfold importRecords
  rw [hlast, decodedLines, hdecode]
  dsimp only [decodedLines]
  rw [readRecords, hfeed]
  dsimp only
  rw [if_neg hstate]
  simp only [readRecords, if_pos hopen]

end Import

/-! ## Both, record by record -/

/-- No field of the record has a line break. -/
def Whole (record : Record) : Prop := ∀ field ∈ record, ∀ c ∈ field, isNewline c = false

section Both

variable {strict : Bytes → Option (List Char)} {codec : Codec} {encoding : String} {d : Dialect}

/-- The line of a whole record that is there when the line ends. -/
theorem whole_line {line : List Char} {r : Reader} (hfeed : Reader.fresh.feed d line = .ok r)
    (hstate : r.state = .startRecord) (hwhole : Whole r.fields) :
    Shaped line ∧ Reader.fresh.feed d (core line) = .ok r := by
  have hfresh : Reader.fresh.state ≠ .eatCrnl := by decide
  obtain ⟨hshaped, hcore, _⟩ := feed_core hfresh hfeed fun x hx => by
    obtain ⟨field, hfield, hx⟩ := (mem_fields_of_has (tidy_feed hfeed tidy_fresh) hstate).mp hx
    exact hwhole field hfield x hx
  exact ⟨hshaped, hcore⟩

/-- A record that is not there when the line ends has the line break in it. -/
theorem broken_of_open {line : List Char} (hline : ∃ c ∈ line, isNewline c = true) {r : Reader}
    (hfeed : Reader.fresh.feed d line = .ok r) (hstate : r.state ≠ .startRecord)
    {begun lines : List (List Char)} {shown : List (List Char) × Record}
    (h : (recordLines d r begun lines).head? = some shown) : ¬ Whole shown.2 := by
  intro hwhole
  have hfresh : Reader.fresh.state ≠ .eatCrnl := by decide
  obtain ⟨_, _, hstart⟩ := feed_core hfresh hfeed fun x hx => by
    obtain ⟨field, hfield, hx⟩ := has_recordLines (tidy_feed hfeed tidy_fresh) hx h
    exact hwhole field hfield x hx
  exact hstate (hstart hline)

theorem unended_append {mark bs : Bytes} (hmark : ∀ b ∈ mark, ¬ EndsLine b) (hbs : ∀ b ∈ bs, ¬ EndsLine b) :
    ∀ b ∈ mark ++ bs, ¬ EndsLine b := by
  intro b hb
  rcases List.mem_append.mp hb with hb | hb
  · exact hmark b hb
  · exact hbs b hb

/-- The first record of the sample, and what the import makes of its line. A mark may stand before it that
the sample was decoded without. -/
theorem first_record (D : LineDecoder strict) (hnil : codec encoding [] = some []) {head rest : Bytes}
    {text : List Char} (htext : strict head = some text)
    (hcut : rest = [] ∨ 1 < (stringLines [] text).length) {shown : List (List Char) × Record}
    {more : List (List (List Char) × Record)}
    (hrecords : recordLines d Reader.fresh [] (stringLines [] text) = shown :: more)
    (hwhole : Whole shown.2) :
    ∃ line bs tail, shown.1 = [line] ∧ head = bs ++ tail ∧ strict bs = some (core line) ∧
      ∀ mark : Bytes, (∀ b ∈ mark, ¬ EndsLine b) → codec encoding (mark ++ bs) = some (core line) →
        ∃ k head' text', strict head' = some text' ∧
          more = recordLines d Reader.fresh [] (stringLines [] text') ∧
          (stringLines [] text).length = (stringLines [] text').length + 1 ∧
          importRecords codec encoding d (mark ++ (head ++ rest)) =
            shown.2 :: (List.replicate k [] ++ importRecords codec encoding d (head' ++ rest)) := by
  by_cases h10 : 10 ∈ head
  · -- the line ends in the sample
    obtain ⟨b, head', rfl, hb⟩ := List.eq_append_cons_of_mem h10
    obtain ⟨t, text', ht, htext', rfl⟩ := D.split b 10 head' text (.inl rfl) htext
    have hfeedChar : Char.ofNat (10 : UInt8).toNat = '\n' := rfl
    have hfree : '\n' ∉ t := D.free b 10 t (.inl rfl) hb ht
    rw [hfeedChar, stringLines_append [] hfree, List.nil_append] at hrecords hcut ⊢
    have hline : ∃ c ∈ t ++ ['\n'], isNewline c = true :=
      ⟨'\n', List.mem_append_right _ (List.mem_singleton_self _), rfl⟩
    rw [recordLines] at hrecords
    cases hfeed : Reader.fresh.feed d (t ++ ['\n']) with
    | error e => rw [hfeed] at hrecords; cases hrecords
    | ok r =>
      rw [hfeed] at hrecords
      dsimp only at hrecords
      by_cases hstate : r.state = .startRecord
      · rw [if_pos hstate] at hrecords
        obtain ⟨rfl, rfl⟩ := List.cons.inj hrecords
        obtain ⟨hshaped, hcore⟩ := whole_line hfeed hstate hwhole
        obtain ⟨bs, j, rfl, hbs, hends⟩ := D.bytes_of_shaped hb ht (shaped_of_lineFeed hshaped)
        rw [core_lineFeed] at hcore
        refine ⟨t ++ ['\n'], bs, List.replicate j 13 ++ 10 :: head', rfl, ?_, ?_, ?_⟩
        · rw [List.append_assoc]
        · rw [core_lineFeed, hbs]
        · intro mark hmark hdecode
          rw [core_lineFeed] at hdecode
          have hends' := unended_append hmark hends
          refine ⟨j - 1, head', text', htext', rfl, rfl, ?_⟩
          have himport := importRecords_line hnil hends' hdecode hcore hstate j (head' ++ rest)
          rw [← himport]
          simp only [List.append_assoc, List.cons_append]
      · rw [if_neg hstate] at hrecords
        have hfirst : (recordLines d r ([] ++ [t ++ ['\n']]) (stringLines [] text')).head? = some shown := by
          rw [hrecords]
          rfl
        exact absurd hwhole (broken_of_open hline hfeed hstate hfirst)
  · -- the line ends the sample
    have hfree : '\n' ∉ text := D.free head 10 text (.inl rfl) h10 htext
    by_cases hne : text = []
    · subst hne
      cases hrecords
    have hlast := stringLines_last [] hfree (by rw [List.nil_append]; exact hne)
    rw [List.nil_append] at hlast
    rw [hlast] at hrecords hcut ⊢
    obtain rfl := hcut.resolve_right (Nat.lt_irrefl 1)
    have hheadNe : head ≠ [] := by
      rintro rfl
      exact hne (Option.some.inj (htext.symm.trans D.nil))
    rw [recordLines] at hrecords
    cases hfeed : Reader.fresh.feed d text with
    | error e => rw [hfeed] at hrecords; cases hrecords
    | ok r =>
      rw [hfeed] at hrecords
      dsimp only at hrecords
      by_cases hstate : r.state = .startRecord
      · rw [if_pos hstate] at hrecords
        obtain ⟨rfl, rfl⟩ := List.cons.inj hrecords
        obtain ⟨hshaped, hcore⟩ := whole_line hfeed hstate hwhole
        obtain ⟨bs, j, rfl, hbs, hbytes⟩ := D.bytes_of_shaped h10 htext hshaped
        refine ⟨text, bs, List.replicate j 13, rfl, rfl, hbs, ?_⟩
        intro mark hmark hdecode
        refine ⟨j - 1, [], [], D.nil, rfl, rfl, ?_⟩
        have hbytesNe : mark ++ bs ++ List.replicate j 13 ≠ [] := by
          rw [List.append_assoc]
          exact List.append_ne_nil_of_right_ne_nil _ hheadNe
        have himport := importRecords_last hnil (unended_append hmark hbytes) hdecode hcore hstate j hbytesNe
        have hempty : importRecords codec encoding d ([] ++ []) = [] := rfl
        rw [List.append_nil, ← List.append_assoc, himport, hempty, List.append_nil]
      · rw [if_neg hstate, recordLines] at hrecords
        split_ifs at hrecords with hopen
        · obtain ⟨rfl, rfl⟩ := List.cons.inj hrecords
          have hfresh : Reader.fresh.state ≠ .eatCrnl := by decide
          have hclean : ∀ x, r.Has x → isNewline x = false := by
            rintro x (hx | ⟨field, hfield, hx⟩)
            · exact hwhole r.field (List.mem_append_right _ (List.mem_singleton_self _)) x hx
            · exact hwhole field (List.mem_append_left _ hfield) x hx
          obtain ⟨hshaped, hcore, hstart⟩ := feed_core hfresh hfeed hclean
          obtain ⟨bs, j, rfl, hbs, hbytes⟩ := D.bytes_of_shaped h10 htext hshaped
          have hj : j = 0 := by
            -- a carriage return would have ended the record
            by_contra hj
            obtain ⟨i, rfl⟩ := Nat.exists_eq_succ_of_ne_zero hj
            obtain ⟨s, s', _, _, rfl⟩ := D.split bs 13 (List.replicate i 13) text (.inr rfl) htext
            exact hstate (hstart ⟨'\r', List.mem_append_right _ (List.mem_cons_self ..), rfl⟩)
          subst hj
          rw [List.replicate_zero, List.append_nil] at hheadNe
          refine ⟨text, bs, [], rfl, rfl, hbs, ?_⟩
          intro mark hmark hdecode
          refine ⟨0, [], [], D.nil, rfl, rfl, ?_⟩
          have hmarkNe : mark ++ bs ≠ [] := List.append_ne_nil_of_right_ne_nil _ hheadNe
          have himport := importRecords_open (unended_append hmark hbytes) hmarkNe hdecode hcore hstate hopen
          have hempty : importRecords codec encoding d ([] ++ []) = [] := rfl
          rw [List.replicate_zero, List.append_nil, List.append_nil, himport, hempty]
          rfl

theorem core_head {line : List Char} {c : Char} (h : (core line).head? = some c) : line.head? = some c := by
  cases line with
  | nil => cases h
  | cons x xs =>
    rw [core, List.takeWhile_cons] at h
    split at h
    · exact h
    · cases h

theorem filter_blanks (k : Nat) (records : List Record) :
    (List.replicate k [] ++ records).filter (· ≠ []) = records.filter (· ≠ []) := by
  induction k with
  | zero => rfl
  | succ k ih =>
    rw [List.replicate_succ, List.cons_append, List.filter_cons, if_neg (by decide), ih]

/-- The rows of the sample, without a record that is broken or marked, are the first ones of the import. -/
theorem rows_prefix (D : LineDecoder strict) (hnil : codec encoding [] = some [])
    (hdecode : ∀ bytes text, strict bytes = some text → text.head? ≠ some '\uFEFF' →
      codec encoding bytes = some text) (rest : Bytes) (n : Nat) {head : Bytes} {text : List Char}
    (htext : strict head = some text) (hcut : rest = [] ∨ n < (stringLines [] text).length)
    (hclean : ∀ shown ∈ (recordLines d Reader.fresh [] (stringLines [] text)).take n,
      Whole shown.2 ∧ ∀ line ∈ shown.1, line.head? ≠ some '\uFEFF') :
    (((recordLines d Reader.fresh [] (stringLines [] text)).take n).map (·.2)).filter (· ≠ []) <+:
      (importRecords codec encoding d (head ++ rest)).filter (· ≠ []) := by
  induction n generalizing head text with
  | zero => exact List.nil_prefix
  | succ n ih =>
    cases hrecords : recordLines d Reader.fresh [] (stringLines [] text) with
    | nil => exact List.nil_prefix
    | cons shown more =>
      rw [hrecords, List.take_succ_cons] at hclean
      obtain ⟨⟨hwhole, hmark⟩, hmore⟩ := List.forall_mem_cons.mp hclean
      have hcut' : rest = [] ∨ 1 < (stringLines [] text).length := hcut.imp_right fun h => by omega
      obtain ⟨line, bs, tail, hline, rfl, hbs, himport⟩ :=
        @first_record strict codec encoding d D hnil _ _ _ htext hcut' _ _ hrecords hwhole
      have hfirst : codec encoding ([] ++ bs) = some (core line) := by
        refine hdecode bs _ hbs fun hhead => ?_
        exact hmark line (by rw [hline]; exact List.mem_singleton_self line) (core_head hhead)
      obtain ⟨k, head', text', htext', rfl, hlength, himport⟩ :=
        himport [] (fun b hb => absurd hb List.not_mem_nil) hfirst
      have hnext := ih htext' (hcut.imp_right fun h => by omega) hmore
      rw [List.nil_append] at himport
      rw [himport, List.take_succ_cons, List.map_cons, List.filter_cons, List.filter_cons, filter_blanks]
      split
      · exact List.cons_prefix_cons.mpr ⟨rfl, hnext⟩
      · exact hnext

/-- The same with the header, which a byte order mark may precede. -/
theorem headed_prefix (D : LineDecoder strict) (hnil : codec encoding [] = some [])
    (hdecode : ∀ bytes text, strict bytes = some text → text.head? ≠ some '\uFEFF' →
      codec encoding bytes = some text) (rest : Bytes) (n : Nat) {mark head : Bytes} {text : List Char}
    (hmark : ∀ b ∈ mark, ¬ EndsLine b)
    (hfirst : ∀ bs tail t, head = bs ++ tail → strict bs = some t → codec encoding (mark ++ bs) = some t)
    (htext : strict head = some text) (hcut : rest = [] ∨ n + 1 < (stringLines [] text).length)
    (hwhole : ∀ shown ∈ (recordLines d Reader.fresh [] (stringLines [] text)).take (n + 1), Whole shown.2)
    (hunmarked : ∀ shown ∈ ((recordLines d Reader.fresh [] (stringLines [] text)).take (n + 1)).tail,
      ∀ line ∈ shown.1, line.head? ≠ some '\uFEFF') :
    headed (((recordLines d Reader.fresh [] (stringLines [] text)).take (n + 1)).map (·.2)) <+:
      headed (importRecords codec encoding d (mark ++ (head ++ rest))) := by
  cases hrecords : recordLines d Reader.fresh [] (stringLines [] text) with
  | nil => exact List.nil_prefix
  | cons shown more =>
    rw [hrecords, List.take_succ_cons] at hwhole hunmarked
    obtain ⟨hheader, hmore⟩ := List.forall_mem_cons.mp hwhole
    have hcut' : rest = [] ∨ 1 < (stringLines [] text).length := hcut.imp_right fun h => by omega
    obtain ⟨line, bs, tail, _, rfl, hbs, himport⟩ :=
      @first_record strict codec encoding d D hnil _ _ _ htext hcut' _ _ hrecords hheader
    obtain ⟨k, head', text', htext', rfl, hlength, himport⟩ :=
      himport mark hmark (hfirst bs tail _ rfl hbs)
    have hrows := rows_prefix D hnil hdecode rest n htext' (hcut.imp_right fun h => by omega)
      fun shown hshown => ⟨hmore shown hshown, hunmarked shown hshown⟩
    rw [himport, List.take_succ_cons, List.map_cons, headed, headed, filter_blanks]
    exact List.cons_prefix_cons.mpr ⟨rfl, hrows⟩

end Both

/-! ## The encoding -/

theorem detectEncoding_cases (head : Bytes) :
    detectEncoding head = "utf-8-sig" ∧ (∃ text, decodeUtf8Sig head = some text) ∨
      detectEncoding head = "utf-8" ∧ (∃ text, decodeUtf8 head = some text) ∨
      detectEncoding head = "latin-1" := by
  have hsig : decodeStrict "utf-8-sig" head = decodeUtf8Sig head := if_pos rfl
  have hutf8 : decodeStrict "utf-8" head = decodeUtf8 head := rfl
  unfold detectEncoding ENCODINGS_TO_TRY
  rw [List.find?_cons, hsig]
  cases hdecode : decodeUtf8Sig head with
  | some text => exact .inl ⟨rfl, text, rfl⟩
  | none =>
    rw [Option.isSome_none, List.find?_cons, hutf8]
    cases hdecode' : decodeUtf8 head with
    | some text => exact .inr (.inl ⟨rfl, text, rfl⟩)
    | none => exact .inr (.inr rfl)

theorem detectEncoding_mem (head : Bytes) : detectEncoding head ∈ ENCODINGS_TO_TRY := by
  rcases detectEncoding_cases head with ⟨h, _⟩ | ⟨h, _⟩ | h
  · rw [h]; exact List.mem_cons_self ..
  · rw [h]; exact List.mem_cons_of_mem _ (List.mem_cons_self ..)
  · rw [h]; exact List.mem_cons_of_mem _ (List.mem_cons_of_mem _ (List.mem_cons_self ..))

theorem endsLine_utf8Mark : ∀ b ∈ utf8Mark, ¬ EndsLine b := by
  intro b hb
  rw [utf8Mark, List.mem_cons, List.mem_cons, List.mem_singleton] at hb
  rcases hb with rfl | rfl | rfl <;> rintro (h | h) <;> cases h

/-- UTF-8 that begins with the mark is a text that does. -/
theorem head_of_utf8Mark {bytes : Bytes} {text : List Char} (h : decodeUtf8 (utf8Mark ++ bytes) = some text) :
    text.head? = some '\uFEFF' := by
  have hmark : decodeUtf8 (utf8Mark ++ bytes) = consChar (some '\uFEFF') (decodeUtf8 bytes) := by
    simp [decodeUtf8, utf8Mark, utf8Decode, codePoint?]
  rw [hmark] at h
  obtain ⟨x, t, hx, _, rfl⟩ := consChar_some h
  exact hx.symm

theorem decodeUtf8Sig_mark (bytes : Bytes) : decodeUtf8Sig (utf8Mark ++ bytes) = decodeUtf8 bytes := by
  have htake : (utf8Mark ++ bytes).take 3 = utf8Mark := rfl
  rw [decodeUtf8Sig, if_pos htake]
  rfl

theorem decodeUtf8Sig_of_unmarked {bytes : Bytes} (h : bytes.take 3 ≠ utf8Mark) :
    decodeUtf8Sig bytes = decodeUtf8 bytes := by
  rw [decodeUtf8Sig, if_neg h]

/-- What both readers have of an encoding: a mark before the rest of the sample, and the decoder of that. -/
structure Decodes (codec : Codec) (encoding : String) (strict : Bytes → Option (List Char))
    (mark rest : Bytes) : Prop where
  lines : LineDecoder strict
  unended : ∀ b ∈ mark, ¬ EndsLine b
  line : ∀ bytes t, strict bytes = some t → t.head? ≠ some '\uFEFF' → codec encoding bytes = some t
  first : ∀ bs tail t, rest = bs ++ tail → strict bs = some t → codec encoding (mark ++ bs) = some t

/-- A line without a mark, in the encoding that drops one. -/
theorem Codec.Replaces.line {codec : Codec} (hcodec : codec.Replaces) {bytes : Bytes} {t : List Char}
    (ht : decodeUtf8 bytes = some t) (hne : t.head? ≠ some '\uFEFF') :
    codec "utf-8-sig" bytes = some t := by
  refine hcodec.strict "utf-8-sig" bytes t ?_
  show decodeUtf8Sig bytes = some t
  by_cases hmark : bytes.take 3 = utf8Mark
  · rw [← List.take_append_drop 3 bytes, hmark] at ht
    exact absurd (head_of_utf8Mark ht) hne
  · rw [decodeUtf8Sig_of_unmarked hmark, ht]

/-- The detected encoding decodes the sample. -/
theorem exists_decodes {codec : Codec} (hcodec : codec.Replaces) (head : Bytes) :
    ∃ strict mark rest, Decodes codec (detectEncoding head) strict mark rest ∧ head = mark ++ rest ∧
      strict rest = some (sampleText codec head) := by
  have hunended : ∀ b ∈ ([] : Bytes), ¬ EndsLine b := fun _ hb => absurd hb List.not_mem_nil
  unfold sampleText
  rcases detectEncoding_cases head with ⟨h, text, htext⟩ | ⟨h, text, htext⟩ | h
  · rw [h, hcodec.strict "utf-8-sig" head text htext, Option.getD_some]
    by_cases hmark : head.take 3 = utf8Mark
    · have hhead : head = utf8Mark ++ head.drop 3 := by
        rw [← hmark, List.take_append_drop]
      refine ⟨decodeUtf8, utf8Mark, head.drop 3,
        ⟨lineDecoder_utf8, endsLine_utf8Mark, fun bytes t => hcodec.line, ?_⟩, hhead, ?_⟩
      · intro bs tail t _ ht
        refine hcodec.strict "utf-8-sig" (utf8Mark ++ bs) t ?_
        show decodeUtf8Sig (utf8Mark ++ bs) = some t
        rw [decodeUtf8Sig_mark, ht]
      · rw [hhead, decodeUtf8Sig_mark] at htext
        exact htext
    · refine ⟨decodeUtf8, [], head, ⟨lineDecoder_utf8, hunended, fun bytes t => hcodec.line, ?_⟩, rfl, ?_⟩
      · intro bs tail t hhead ht
        refine hcodec.strict "utf-8-sig" bs t ?_
        show decodeUtf8Sig bs = some t
        have hbs : bs.take 3 ≠ utf8Mark := by
          intro hbs
          refine hmark ?_
          have hlength : 3 ≤ bs.length := by
            have htake := congrArg List.length hbs
            rw [List.length_take] at htake
            have hthree : utf8Mark.length = 3 := rfl
            omega
          rw [hhead, List.take_append_of_le_length hlength, hbs]
        rw [decodeUtf8Sig_of_unmarked hbs, ht]
      · rw [← decodeUtf8Sig_of_unmarked hmark, htext]
  · rw [h, hcodec.strict "utf-8" head text htext, Option.getD_some]
    exact ⟨decodeUtf8, [], head, ⟨lineDecoder_utf8, hunended,
      fun bytes t ht _ => hcodec.strict "utf-8" bytes t ht,
      fun bs tail t _ ht => hcodec.strict "utf-8" bs t ht⟩, rfl, htext⟩
  · have hlatin : ∀ bytes, codec "latin-1" bytes = some (decodeLatin1 bytes) :=
      fun bytes => hcodec.strict "latin-1" bytes _ rfl
    rw [h, hlatin, Option.getD_some]
    refine ⟨fun bytes => some (decodeLatin1 bytes), [], head, ⟨lineDecoder_latin1, hunended, ?_, ?_⟩, rfl, rfl⟩
    · intro bytes t ht _
      rw [hlatin, ht]
    · intro bs tail t _ ht
      rw [List.nil_append, hlatin, ht]

/-! ## The preview -/

/-- What is known of a file whose preview is shown. -/
theorem inspectSample_ok {codec : Codec} {sniff : List Char → Option Char}
    {inferType : List (List Char) → DataType} {head : Bytes} {preview : Preview}
    (h : inspectSample codec sniff inferType head = .ok preview) :
    preview.encoding = detectEncoding head ∧
      ∃ dialect, Dialect.of? [preview.delimiter] = some dialect ∧
        shownRecords codec sniff head =
          (wholeRows head (recordLines dialect Reader.fresh [] (stringLines [] (sampleText codec head)))).take
            (SAMPLE_ROWS + 1) ∧
        (shownRecords codec sniff head).map (·.2) = preview.headers :: preview.sampleRows := by
  unfold inspectSample at h
  unfold shownRecords
  dsimp only at h ⊢
  cases hdialect : Dialect.of? [detectDelimiter sniff (sampleText codec head)] with
  | none => rw [hdialect] at h; cases h
  | some dialect =>
    rw [hdialect] at h
    dsimp only at h ⊢
    have hmap := @map_recordLines Empty dialect Reader.fresh []
      (stringLines [] (sampleText codec head))
    have hwhole : ∀ entries : List (List (List Char) × Record),
        (wholeRows head entries).map (·.2) = wholeRows head (entries.map (·.2)) := by
      intro entries
      unfold wholeRows
      split
      · exact List.map_dropLast
      · rfl
    split at h
    · cases h
    · rename_i e _
      cases e
    · split at h
      · cases h
      · rename_i headers rows hrows
        obtain rfl := Except.ok.inj h
        refine ⟨rfl, dialect, hdialect, rfl, ?_⟩
        rw [List.map_take, hwhole, hmap, hrows, List.take_succ_cons]

/-- The rows that are shown are the first ones of the sample; where more of the file follows, its last line
is not among them. -/
theorem exists_take {head rest : Bytes} (hrest : head.length < SAMPLE_BYTES → rest = [])
    (d : Dialect) (lines : List (List Char)) :
    ∃ n, (wholeRows head (recordLines d Reader.fresh [] lines)).take (SAMPLE_ROWS + 1) =
        (recordLines d Reader.fresh [] lines).take n ∧
      (rest = [] ∨ n < lines.length ∨ n = 0) := by
  have hlength := length_recordLines_le d Reader.fresh [] lines
  have hfresh : ¬ (Reader.fresh.field ≠ [] ∨ Reader.fresh.state = .inQuotedField) := by decide
  rw [if_neg hfresh, Nat.add_zero] at hlength
  unfold wholeRows
  by_cases hcut : SAMPLE_BYTES ≤ head.length
  · rw [if_pos hcut, List.dropLast_eq_take, List.take_take]
    refine ⟨_, rfl, .inr ?_⟩
    omega
  · rw [if_neg hcut]
    exact ⟨_, rfl, .inl (hrest (Nat.lt_of_not_le hcut))⟩

theorem mem_decodedLines {decode : Bytes → Option (List Char)} {e : Option Failure}
    {lines : List Bytes} {text : List Char} (h : text ∈ (decodedLines decode e lines).1) :
    ∃ line ∈ lines, decode line = some text := by
  induction lines with
  | nil => cases h
  | cons line lines ih =>
    rw [decodedLines] at h
    cases hdecode : decode line with
    | none => rw [hdecode] at h; cases h
    | some t =>
      rw [hdecode] at h
      rcases List.mem_cons.mp h with rfl | h
      · exact ⟨line, List.mem_cons_self .., hdecode⟩
      · obtain ⟨l, hl, hdecode⟩ := ih h
        exact ⟨l, List.mem_cons_of_mem _ hl, hdecode⟩

/-- The import has no line break in a field. -/
theorem whole_importRecords {codec : Codec} (hcodec : codec.Replaces) {encoding : String}
    (hencoding : encoding ∈ ENCODINGS_TO_TRY) {d : Dialect} {body : Bytes} {record : Record}
    (h : record ∈ importRecords codec encoding d body) : Whole record := by
  intro field hfield c hc
  unfold importRecords at h
  rcases mem_readRecords tidy_fresh h hfield hc with hfresh | ⟨text, htext, hc⟩
  · exact absurd hfresh (not_has_fresh c)
  · obtain ⟨line, hline, hdecode⟩ := mem_decodedLines htext
    have hunended := endsLine_of_mem_splitlinesFrom (fun _ hb => absurd hb List.not_mem_nil) hline
    exact hcodec.lines encoding hencoding line text
      (fun b hb => ⟨fun h10 => hunended b hb (.inl h10), fun h13 => hunended b hb (.inr h13)⟩) hdecode c hc

theorem mem_of_mem_headed {records : List Record} {record : Record} (h : record ∈ headed records) :
    record ∈ records := by
  cases records with
  | nil => cases h
  | cons header rows =>
    rcases List.mem_cons.mp h with rfl | h
    · exact List.mem_cons_self ..
    · exact List.mem_cons_of_mem _ (List.mem_of_mem_filter h)

theorem mem_headed {records : List Record} {record : Record} (h : record ∈ records) (hne : record ≠ []) :
    record ∈ headed records := by
  cases records with
  | nil => cases h
  | cons header rows =>
    rcases List.mem_cons.mp h with rfl | h
    · exact List.mem_cons_self ..
    · exact List.mem_cons_of_mem _ (List.mem_filter.mpr ⟨h, decide_eq_true hne⟩)

/-! ## A codec -/

/-- A handler that puts U+FFFD for every byte of what cannot be decoded. -/
def replacing : Codec := fun encoding bytes =>
  if encoding ∈ ENCODINGS_TO_TRY then
    some ((decodeStrict encoding bytes).getD (List.replicate bytes.length REPLACEMENT))
  else none

theorem newline_free_decodeStrict {encoding : String} {bytes : Bytes} {text : List Char}
    (h : decodeStrict encoding bytes = some text) (hbytes : ∀ b ∈ bytes, ¬ EndsLine b) :
    ∀ c ∈ text, isNewline c = false := by
  unfold decodeStrict at h
  split_ifs at h
  · unfold decodeUtf8Sig at h
    split_ifs at h
    · exact lineDecoder_utf8.newline_free (fun b hb => hbytes b (List.mem_of_mem_drop hb)) h
    · exact lineDecoder_utf8.newline_free hbytes h
  · exact lineDecoder_utf8.newline_free hbytes h
  · exact lineDecoder_latin1.newline_free hbytes h

theorem replaces_replacing : replacing.Replaces where
  strict encoding bytes text h := by
    have hmem : encoding ∈ ENCODINGS_TO_TRY := by
      unfold decodeStrict at h
      unfold ENCODINGS_TO_TRY
      split_ifs at h with hsig hutf8 hlatin
      · rw [hsig]; exact List.mem_cons_self ..
      · rw [hutf8]; exact List.mem_cons_of_mem _ (List.mem_cons_self ..)
      · rw [hlatin]; exact List.mem_cons_of_mem _ (List.mem_cons_of_mem _ (List.mem_cons_self ..))
    rw [replacing, if_pos hmem, h, Option.getD_some]
  lines encoding hencoding bytes text hbytes h := by
    have hunended : ∀ b ∈ bytes, ¬ EndsLine b := by
      rintro b hb (h10 | h13)
      · exact (hbytes b hb).1 h10
      · exact (hbytes b hb).2 h13
    rw [replacing, if_pos hencoding] at h
    obtain rfl := Option.some.inj h
    cases hdecode : decodeStrict encoding bytes with
    | some text => exact newline_free_decodeStrict hdecode hunended
    | none =>
      intro c hc
      rw [List.eq_of_mem_replicate hc]
      rfl

/-- The preview shows what the import will read where no field that is shown has a line break and no row
after the header begins with a byte order mark; and wherever it does, there is no such line break. -/
theorem previewAgrees_of_unbroken {codec : Codec} (hcodec : codec.Replaces)
    (sniff : List Char → Option Char) (inferType : List (List Char) → DataType) (body : Bytes) :
    (Unbroken codec sniff body → Unmarked codec sniff body → PreviewAgrees codec sniff inferType body) ∧
      ∀ preview, inspectSample codec sniff inferType (body.take SAMPLE_BYTES) = .ok preview →
        PreviewAgrees codec sniff inferType body → Unbroken codec sniff body := by
  constructor
  · intro hunbroken hunmarked preview dialect hpreview hdialect
    obtain ⟨hencoding, dialect', hdialect', hshown, hrows⟩ := inspectSample_ok hpreview
    obtain rfl := Option.some.inj (hdialect.symm.trans hdialect')
    obtain ⟨strict, mark, rest, hdecodes, hhead, htext⟩ := exists_decodes hcodec (body.take SAMPLE_BYTES)
    have hdrop : (body.take SAMPLE_BYTES).length < SAMPLE_BYTES → body.drop SAMPLE_BYTES = [] := by
      intro hlt
      rw [List.length_take] at hlt
      exact List.drop_eq_nil_of_le (by omega)
    obtain ⟨n, htake, hcut⟩ := exists_take hdrop dialect
      (stringLines [] (sampleText codec (body.take SAMPLE_BYTES)))
    rw [htake] at hshown
    have hnil : codec (detectEncoding (body.take SAMPLE_BYTES)) [] = some [] :=
      hdecodes.line [] [] hdecodes.lines.nil fun h => by cases h
    have hbody : body = mark ++ (rest ++ body.drop SAMPLE_BYTES) := by
      rw [← List.append_assoc, ← hhead, List.take_append_drop]
    cases n with
    | zero =>
      rw [hshown] at hrows
      cases hrows
    | succ n =>
      have hcut' := hcut.imp_right fun h => h.resolve_right (Nat.succ_ne_zero n)
      unfold Unbroken at hunbroken
      unfold Unmarked at hunmarked
      rw [hshown] at hunbroken hunmarked
      have hheaded := headed_prefix hdecodes.lines hnil hdecodes.line (body.drop SAMPLE_BYTES) n hdecodes.unended
        hdecodes.first htext hcut' hunbroken hunmarked
      rw [← hbody] at hheaded
      rw [← hrows, hshown, hencoding]
      exact hheaded
  · intro preview hpreview hagrees shown hshown field hfield
    obtain ⟨hencoding, dialect, hdialect, _, hrows⟩ := inspectSample_ok hpreview
    have hmem : shown.2 ∈ preview.headers :: preview.sampleRows := by
      rw [← hrows]
      exact List.mem_map_of_mem hshown
    have hprefix := hagrees preview dialect hpreview hdialect
    have himport := hprefix.subset (mem_headed hmem (List.ne_nil_of_mem hfield))
    have hencoding' : preview.encoding ∈ ENCODINGS_TO_TRY := by
      rw [hencoding]
      exact detectEncoding_mem _
    exact whole_importRecords hcodec hencoding' (mem_of_mem_headed himport) field hfield

/-- Two columns, with the second row on two lines. -/
def noteOnTwoLines : Bytes := utf8Encode "a,b\n1,\"x\ny\"\n".toList

theorem take_sample {body : Bytes} (h : body.length ≤ SAMPLE_BYTES) : body.take SAMPLE_BYTES = body :=
  List.take_of_length_le h

theorem previewAgrees_of_unbroken_plain :
    PreviewAgrees replacing (fun _ => some ',') (fun _ => .text) (utf8Encode "a,b\n1,2\n".toList) := by
  have hshort : (utf8Encode "a,b\n1,2\n".toList).length ≤ SAMPLE_BYTES := by decide
  have hshown : shownRecords replacing (fun _ => some ',') (utf8Encode "a,b\n1,2\n".toList) =
      [(["a,b\n".toList], ["a".toList, "b".toList]), (["1,2\n".toList], ["1".toList, "2".toList])] := by
    decide +kernel
  have hagrees := (previewAgrees_of_unbroken replaces_replacing (fun _ => some ',') (fun _ => .text)
    (utf8Encode "a,b\n1,2\n".toList)).1
  unfold Unbroken Unmarked at hagrees
  rw [take_sample hshort, hshown] at hagrees
  refine hagrees ?_ (by decide)
  simp [isNewline]

/-- The line break in the field is in the preview and not in the import. -/
theorem not_previewAgrees_noteOnTwoLines : ¬ ∀ (codec : Codec), codec.Replaces →
    ∀ (sniff : List Char → Option Char) (inferType : List (List Char) → DataType) (body : Bytes),
      PreviewAgrees codec sniff inferType body := by
  intro h
  have hagrees := h replacing replaces_replacing (fun _ => some ',') (fun _ => .text) noteOnTwoLines
  have hshort : noteOnTwoLines.length ≤ SAMPLE_BYTES := by decide
  have hpreview : inspectSample replacing (fun _ => some ',') (fun _ => .text) noteOnTwoLines =
        .ok
          { encoding := "utf-8-sig"
            delimiter := ','
            headers := ["a".toList, "b".toList]
            sampleRows := [["1".toList, "x\ny".toList]]
            columns := [("a".toList, .text), ("b".toList, .text)] } := by
    decide +kernel
  unfold PreviewAgrees at hagrees
  rw [take_sample hshort] at hagrees
  have hprefix := hagrees _ _ hpreview rfl
  have himport : importRecords replacing "utf-8-sig" ⟨',', by decide⟩ noteOnTwoLines =
      [["a".toList, "b".toList], ["1".toList, "xy".toList]] := by
    decide +kernel
  rw [himport] at hprefix
  exact absurd hprefix (by decide)

end Imports
