import IntraCloud.Python.Proofs.CsvProofs

/-!
# Lines with and without their ends

What `csv.reader` makes of a line that still has its line break, it makes of the line without it, unless
the break stands in a quoted field.
-/

namespace Python.Csv

/-! ## One character -/

/-- The states between two fields. -/
def ParseState.Between (s : ParseState) : Prop := s = .startRecord ∨ s = .startField ∨ s = .eatCrnl

/-- What a character can do to a reader. -/
inductive Effect (r : Reader) (c : Option Char) : Reader → Prop where
  | keep (s : ParseState) (h : s.Between → r.state.Between) : Effect r c { r with state := s }
  | save (s : ParseState) : Effect r c (r.saveField s)
  | add (x : Char) (s : ParseState) (hc : c = some x) (hs : ¬ s.Between) :
      Effect r c { r with field := r.field ++ [x], state := s }

theorem effect_of_addChar {r r' : Reader} {x : Char} {s : ParseState} (hs : ¬ s.Between)
    (h : r.addChar x s = .ok r') : Effect r (some x) r' := by
  unfold Reader.addChar at h
  split at h
  · cases h
  · obtain rfl := Except.ok.inj h
    exact .add x s rfl hs

theorem not_between_inField : ¬ ParseState.inField.Between := by
  rintro (h | h | h) <;> cases h

theorem not_between_inQuotedField : ¬ ParseState.inQuotedField.Between := by
  rintro (h | h | h) <;> cases h

theorem effect_of_startField {d : Dialect} {r r' : Reader} {c : Option Char}
    (h : r.startField d c = .ok r') : Effect r c r' := by
  cases c with
  | none =>
    obtain rfl := Except.ok.inj h
    exact .save _
  | some x =>
    simp only [Reader.startField] at h
    split_ifs at h
    · obtain rfl := Except.ok.inj h
      exact .save _
    · obtain rfl := Except.ok.inj h
      exact .keep _ fun hbetween => absurd hbetween not_between_inQuotedField
    · obtain rfl := Except.ok.inj h
      exact .save _
    · exact effect_of_addChar not_between_inField h

theorem effect_of_processChar {d : Dialect} {r r' : Reader} {c : Option Char}
    (h : r.processChar d c = .ok r') : Effect r c r' := by
  have hkeep : Effect r c r := .keep r.state id
  have hstates : ∀ s, r.state.Between → Effect r c { r with state := s } := fun s hr => .keep s fun _ => hr
  have hquote : Effect r c { r with state := .quoteInQuotedField } := by
    refine .keep _ ?_
    rintro (h | h | h) <;> cases h
  unfold Reader.processChar at h
  split at h
  · obtain rfl := Except.ok.inj h
    exact hkeep
  · rename_i hstate
    split_ifs at h
    · obtain rfl := Except.ok.inj h
      exact hstates _ (.inl hstate)
    · exact effect_of_startField h
  · exact effect_of_startField h
  · obtain rfl := Except.ok.inj h
    exact .save _
  · split_ifs at h
    · obtain rfl := Except.ok.inj h
      exact .save _
    · obtain rfl := Except.ok.inj h
      exact .save _
    · exact effect_of_addChar not_between_inField h
  · obtain rfl := Except.ok.inj h
    exact hkeep
  · split_ifs at h
    · obtain rfl := Except.ok.inj h
      exact hquote
    · exact effect_of_addChar not_between_inQuotedField h
  · obtain rfl := Except.ok.inj h
    exact .save _
  · split_ifs at h
    · exact effect_of_addChar not_between_inQuotedField h
    · obtain rfl := Except.ok.inj h
      exact .save _
    · obtain rfl := Except.ok.inj h
      exact .save _
    · exact effect_of_addChar not_between_inField h
  · rename_i hstate
    obtain rfl := Except.ok.inj h
    exact hstates _ (.inr (.inr hstate))
  · split_ifs at h
    obtain rfl := Except.ok.inj h
    exact hkeep

/-- The character is in a field that has been read, or is being read. -/
def Reader.Has (r : Reader) (x : Char) : Prop := x ∈ r.field ∨ ∃ field ∈ r.fields, x ∈ field

/-- Between two fields nothing has been read of the next one. -/
def Reader.Tidy (r : Reader) : Prop := r.state.Between → r.field = []

theorem Effect.has {r r' : Reader} {c : Option Char} (h : Effect r c r') {x : Char} (hx : r.Has x) :
    r'.Has x := by
  cases h with
  | keep s _ => exact hx
  | save s =>
    rcases hx with hx | ⟨field, hfield, hx⟩
    · exact .inr ⟨r.field, List.mem_append_right _ (List.mem_singleton_self _), hx⟩
    · exact .inr ⟨field, List.mem_append_left _ hfield, hx⟩
  | add y s _ _ =>
    rcases hx with hx | hx
    · exact .inl (List.mem_append_left _ hx)
    · exact .inr hx

/-- Every character comes from the text. -/
theorem Effect.from {r r' : Reader} {c : Option Char} (h : Effect r c r') {x : Char} (hx : r'.Has x) :
    r.Has x ∨ c = some x := by
  cases h with
  | keep s _ => exact .inl hx
  | save s =>
    rcases hx with hx | ⟨field, hfield, hx⟩
    · cases hx
    · rcases List.mem_append.mp hfield with hfield | hfield
      · exact .inl (.inr ⟨field, hfield, hx⟩)
      · rw [List.mem_singleton.mp hfield] at hx
        exact .inl (.inl hx)
  | add y s hc _ =>
    rcases hx with hx | hx
    · rcases List.mem_append.mp hx with hx | hx
      · exact .inl (.inl hx)
      · rw [List.mem_singleton.mp hx]
        exact .inr hc
    · exact .inl (.inr hx)

theorem Effect.tidy {r r' : Reader} {c : Option Char} (h : Effect r c r') (hr : r.Tidy) : r'.Tidy := by
  cases h with
  | keep s hs => exact fun hbetween => hr (hs hbetween)
  | save s => exact fun _ => rfl
  | add y s _ hs => exact fun hbetween => absurd hbetween hs

/-! ## The characters of a line -/

theorem has_feedChars {d : Dialect} {r r' : Reader} {cs : List Char} (h : r.feedChars d cs = .ok r')
    {x : Char} (hx : r.Has x) : r'.Has x := by
  induction cs generalizing r with
  | nil =>
    obtain rfl := Except.ok.inj h
    exact hx
  | cons c cs ih =>
    rw [Reader.feedChars] at h
    cases hstep : r.processChar d (some c) with
    | error e => rw [hstep] at h; cases h
    | ok r₁ =>
      rw [hstep] at h
      exact ih h ((effect_of_processChar hstep).has hx)

theorem from_feedChars {d : Dialect} {r r' : Reader} {cs : List Char} (h : r.feedChars d cs = .ok r')
    {x : Char} (hx : r'.Has x) : r.Has x ∨ x ∈ cs := by
  induction cs generalizing r with
  | nil =>
    obtain rfl := Except.ok.inj h
    exact .inl hx
  | cons c cs ih =>
    rw [Reader.feedChars] at h
    cases hstep : r.processChar d (some c) with
    | error e => rw [hstep] at h; cases h
    | ok r₁ =>
      rw [hstep] at h
      rcases ih h with hx | hx
      · rcases (effect_of_processChar hstep).from hx with hx | hx
        · exact .inl hx
        · exact .inr (by rw [Option.some.inj hx]; exact List.mem_cons_self ..)
      · exact .inr (List.mem_cons_of_mem _ hx)

theorem tidy_feedChars {d : Dialect} {r r' : Reader} {cs : List Char} (h : r.feedChars d cs = .ok r')
    (hr : r.Tidy) : r'.Tidy := by
  induction cs generalizing r with
  | nil =>
    obtain rfl := Except.ok.inj h
    exact hr
  | cons c cs ih =>
    rw [Reader.feedChars] at h
    cases hstep : r.processChar d (some c) with
    | error e => rw [hstep] at h; cases h
    | ok r₁ =>
      rw [hstep] at h
      exact ih h ((effect_of_processChar hstep).tidy hr)

theorem feed_parts {d : Dialect} {r r' : Reader} {line : List Char} (h : r.feed d line = .ok r') :
    ∃ r₁, r.feedChars d line = .ok r₁ ∧ r₁.processChar d none = .ok r' := by
  rw [feed_eq] at h
  cases hchars : r.feedChars d line with
  | error e => rw [hchars] at h; cases h
  | ok r₁ =>
    rw [hchars] at h
    exact ⟨r₁, rfl, h⟩

theorem has_feed {d : Dialect} {r r' : Reader} {line : List Char} (h : r.feed d line = .ok r') {x : Char}
    (hx : r.Has x) : r'.Has x := by
  obtain ⟨r₁, hchars, hend⟩ := feed_parts h
  exact (effect_of_processChar hend).has (has_feedChars hchars hx)

theorem from_feed {d : Dialect} {r r' : Reader} {line : List Char} (h : r.feed d line = .ok r') {x : Char}
    (hx : r'.Has x) : r.Has x ∨ x ∈ line := by
  obtain ⟨r₁, hchars, hend⟩ := feed_parts h
  rcases (effect_of_processChar hend).from hx with hx | hx
  · exact from_feedChars hchars hx
  · cases hx

theorem tidy_feed {d : Dialect} {r r' : Reader} {line : List Char} (h : r.feed d line = .ok r')
    (hr : r.Tidy) : r'.Tidy := by
  obtain ⟨r₁, hchars, hend⟩ := feed_parts h
  exact (effect_of_processChar hend).tidy (tidy_feedChars hchars hr)

theorem tidy_fresh : Reader.fresh.Tidy := fun _ => rfl

theorem not_has_fresh (x : Char) : ¬ Reader.fresh.Has x := by
  rintro (h | ⟨field, h, _⟩) <;> cases h

/-- The fields of a record have its characters. -/
theorem mem_fields_of_has {r : Reader} (hr : r.Tidy) (hstate : r.state = .startRecord) {x : Char} :
    r.Has x ↔ ∃ field ∈ r.fields, x ∈ field := by
  constructor
  · rintro (hx | hx)
    · rw [hr (.inl hstate)] at hx
      cases hx
    · exact hx
  · exact .inr

/-- Every character of a record comes from the lines. -/
theorem mem_readRecords {ε : Type} {d : Dialect} {e : Option ε} {r : Reader} {lines : List (List Char)}
    (hr : r.Tidy) {record : Record} (hrecord : record ∈ (readRecords d e r lines).1) {field : List Char}
    (hfield : field ∈ record) {x : Char} (hx : x ∈ field) : r.Has x ∨ ∃ line ∈ lines, x ∈ line := by
  induction lines generalizing r with
  | nil =>
    cases e with
    | some e => cases hrecord
    | none =>
      simp only [readRecords] at hrecord
      split_ifs at hrecord
      · obtain rfl := List.mem_singleton.mp hrecord
        rcases List.mem_append.mp hfield with hfield | hfield
        · exact .inl (.inr ⟨field, hfield, hx⟩)
        · rw [List.mem_singleton.mp hfield] at hx
          exact .inl (.inl hx)
      · cases hrecord
  | cons line lines ih =>
    rw [readRecords] at hrecord
    cases hfeed : r.feed d line with
    | error e => rw [hfeed] at hrecord; cases hrecord
    | ok r' =>
      rw [hfeed] at hrecord
      dsimp only at hrecord
      have hline : ∀ {x : Char}, r'.Has x → r.Has x ∨ ∃ l ∈ line :: lines, x ∈ l := by
        intro x hx
        rcases from_feed hfeed hx with hx | hx
        · exact .inl hx
        · exact .inr ⟨line, List.mem_cons_self .., hx⟩
      have hlines : (∃ l ∈ lines, x ∈ l) → ∃ l ∈ line :: lines, x ∈ l := by
        rintro ⟨l, hl, hx⟩
        exact ⟨l, List.mem_cons_of_mem _ hl, hx⟩
      have htidy := tidy_feed hfeed hr
      by_cases hstate : r'.state = .startRecord
      · rw [if_pos hstate] at hrecord
        rcases List.mem_cons.mp hrecord with rfl | hrecord
        · exact hline (.inr ⟨field, hfield, hx⟩)
        · rcases ih tidy_fresh hrecord with hx | hx
          · exact absurd hx (not_has_fresh x)
          · exact .inr (hlines hx)
      · rw [if_neg hstate] at hrecord
        rcases ih htidy hrecord with hx | hx
        · exact hline hx
        · exact .inr (hlines hx)

/-! ## A line break -/

/-- After a line break outside of quotes there is nothing but line breaks. -/
theorem feedChars_eatCrnl {d : Dialect} {r r' : Reader} {cs : List Char} (hr : r.state = .eatCrnl)
    (h : r.feedChars d cs = .ok r') : r' = r ∧ ∀ c ∈ cs, isNewline c = true := by
  induction cs generalizing r with
  | nil => exact ⟨(Except.ok.inj h).symm, fun c hc => absurd hc List.not_mem_nil⟩
  | cons c cs ih =>
    have hstep : r.processChar d (some c) =
        if isNewline c then .ok r else .error .newlineInUnquotedField := by
      simp only [Reader.processChar, hr]
    rw [Reader.feedChars, hstep] at h
    by_cases hc : isNewline c = true
    · rw [if_pos hc] at h
      obtain ⟨heq, hcs⟩ := ih hr h
      refine ⟨heq, fun x hx => ?_⟩
      rcases List.mem_cons.mp hx with rfl | hx
      · exact hc
      · exact hcs x hx
    · rw [if_neg hc] at h
      cases h

/-- A line break outside of quotes does what the end of the line does, and then passes over the others. -/
theorem processChar_newline {d : Dialect} {r r' : Reader} {c : Char} (hc : isNewline c = true)
    (hquoted : r.state ≠ .inQuotedField) (heat : r.state ≠ .eatCrnl)
    (h : r.processChar d (some c) = .ok r') :
    r'.state = .eatCrnl ∧ r.processChar d none = r'.processChar d none := by
  obtain ⟨state, field, fields⟩ := r
  have hne : c ≠ '"' := by
    rintro rfl
    cases hc
  have hnd : c ≠ d.delimiter := by
    rintro rfl
    simp only [isNewline, Bool.or_eq_true, beq_iff_eq] at hc
    exact hc.elim d.valid.1 d.valid.2.1
  cases state with
  | inQuotedField => exact absurd rfl hquoted
  | eatCrnl => exact absurd rfl heat
  | startRecord =>
    simp only [Reader.processChar, if_pos hc] at h
    obtain rfl := Except.ok.inj h
    exact ⟨rfl, rfl⟩
  | startField =>
    simp only [Reader.processChar, Reader.startField, if_pos hc] at h
    obtain rfl := Except.ok.inj h
    exact ⟨rfl, rfl⟩
  | inField =>
    simp only [Reader.processChar, if_pos hc] at h
    obtain rfl := Except.ok.inj h
    exact ⟨rfl, rfl⟩
  | quoteInQuotedField =>
    simp only [Reader.processChar, if_neg hne, if_neg hnd, if_pos hc] at h
    obtain rfl := Except.ok.inj h
    exact ⟨rfl, rfl⟩

/-- Another character leads to no line break. -/
theorem processChar_ne_eatCrnl {d : Dialect} {r r' : Reader} {c : Char} (hc : isNewline c = false)
    (h : r.processChar d (some c) = .ok r') : r'.state ≠ .eatCrnl := by
  obtain ⟨state, field, fields⟩ := r
  have hadd : ∀ {s : ParseState}, s ≠ .eatCrnl → Reader.addChar ⟨state, field, fields⟩ c s = .ok r' →
      r'.state ≠ .eatCrnl := by
    intro s hs hadd
    unfold Reader.addChar at hadd
    split at hadd
    · cases hadd
    · obtain rfl := Except.ok.inj hadd
      exact hs
  have hstart : Reader.startField d ⟨state, field, fields⟩ (some c) = .ok r' → r'.state ≠ .eatCrnl := by
    intro hstart
    simp only [Reader.startField, hc, Bool.false_eq_true, if_false] at hstart
    split_ifs at hstart
    · obtain rfl := Except.ok.inj hstart
      exact ParseState.noConfusion
    · obtain rfl := Except.ok.inj hstart
      exact ParseState.noConfusion
    · exact hadd ParseState.noConfusion hstart
  cases state with
  | startRecord =>
    simp only [Reader.processChar, hc, Bool.false_eq_true, if_false] at h
    exact hstart h
  | startField => exact hstart h
  | inField =>
    simp only [Reader.processChar, hc, Bool.false_eq_true, if_false] at h
    split_ifs at h
    · obtain rfl := Except.ok.inj h
      exact ParseState.noConfusion
    · exact hadd ParseState.noConfusion h
  | inQuotedField =>
    simp only [Reader.processChar] at h
    split_ifs at h
    · obtain rfl := Except.ok.inj h
      exact ParseState.noConfusion
    · exact hadd ParseState.noConfusion h
  | quoteInQuotedField =>
    simp only [Reader.processChar, hc, Bool.false_eq_true, if_false] at h
    split_ifs at h
    · exact hadd ParseState.noConfusion h
    · obtain rfl := Except.ok.inj h
      exact ParseState.noConfusion
    · exact hadd ParseState.noConfusion h
  | eatCrnl =>
    simp only [Reader.processChar, hc, Bool.false_eq_true, if_false] at h
    cases h

/-- The text before the first line break. -/
def core (line : List Char) : List Char := line.takeWhile fun c => !isNewline c

theorem core_of_free {text : List Char} (h : ∀ c ∈ text, isNewline c = false) : core text = text := by
  induction text with
  | nil => rfl
  | cons c cs ih =>
    obtain ⟨hc, hcs⟩ := List.forall_mem_cons.mp h
    have ih := ih hcs
    unfold core at ih ⊢
    rw [List.takeWhile_cons, hc, ih]
    rfl

/-- A line in which nothing follows the first line break. -/
def Shaped (line : List Char) : Prop :=
  ∀ c ∈ line.dropWhile fun c => !isNewline c, isNewline c = true

/-- A line without a break in its fields, and the same line without its end. -/
theorem feed_core {d : Dialect} {r r' : Reader} {line : List Char} (heat : r.state ≠ .eatCrnl)
    (h : r.feed d line = .ok r') (hclean : ∀ x, r'.Has x → isNewline x = false) :
    Shaped line ∧ r.feed d (core line) = .ok r' ∧
      ((∃ c ∈ line, isNewline c = true) → r'.state = .startRecord) := by
  induction line generalizing r with
  | nil =>
    refine ⟨fun c hc => absurd hc List.not_mem_nil, h, ?_⟩
    rintro ⟨c, hc, _⟩
    cases hc
  | cons c cs ih =>
    rw [Reader.feed] at h
    cases hstep : r.processChar d (some c) with
    | error e => rw [hstep] at h; cases h
    | ok r₁ =>
      rw [hstep] at h
      dsimp only at h
      by_cases hc : isNewline c = true
      · have hcore : core (c :: cs) = [] := by
          rw [core, List.takeWhile_cons, hc]
          rfl
        have hdrop : (c :: cs).dropWhile (fun c => !isNewline c) = c :: cs := by
          rw [List.dropWhile_cons, hc]
          rfl
        rw [feed_eq] at h
        cases hrest : r₁.feedChars d cs with
        | error e => rw [hrest] at h; cases h
        | ok r₂ =>
          rw [hrest] at h
          dsimp only at h
          have hquoted : r.state ≠ .inQuotedField := by
            -- the break would be in the field
            intro hquoted
            have hne : c ≠ '"' := by
              rintro rfl
              cases hc
            simp only [Reader.processChar, hquoted, if_neg hne, Reader.addChar] at hstep
            split_ifs at hstep
            obtain rfl := Except.ok.inj hstep
            have hhas : Reader.Has ⟨.inQuotedField, r.field ++ [c], r.fields⟩ c :=
              .inl (List.mem_append_right _ (List.mem_singleton_self c))
            have hfalse := hclean c ((effect_of_processChar h).has (has_feedChars hrest hhas))
            rw [hc] at hfalse
            cases hfalse
          obtain ⟨heatCrnl, hend⟩ := processChar_newline hc hquoted heat hstep
          obtain ⟨rfl, hcs⟩ := feedChars_eatCrnl heatCrnl hrest
          refine ⟨?_, ?_, fun _ => ?_⟩
          · unfold Shaped
            rw [hdrop]
            intro x hx
            rcases List.mem_cons.mp hx with rfl | hx
            · exact hc
            · exact hcs x hx
          · rw [hcore, Reader.feed, hend]
            exact h
          · simp only [Reader.processChar, heatCrnl] at h
            obtain rfl := Except.ok.inj h
            rfl
      · have hc : isNewline c = false := Bool.eq_false_iff.mpr hc
        have hcore : core (c :: cs) = c :: core cs := by
          rw [core, List.takeWhile_cons, hc]
          rfl
        have hdrop : (c :: cs).dropWhile (fun c => !isNewline c) = cs.dropWhile (fun c => !isNewline c) := by
          rw [List.dropWhile_cons, hc]
          rfl
        obtain ⟨hshaped, hfeed, hstart⟩ := ih (processChar_ne_eatCrnl hc hstep) h
        refine ⟨?_, ?_, ?_⟩
        · unfold Shaped
          rw [hdrop]
          exact hshaped
        · rw [hcore, Reader.feed, hstep]
          exact hfeed
        · rintro ⟨x, hx, hnewline⟩
          rcases List.mem_cons.mp hx with rfl | hx
          · rw [hc] at hnewline
            cases hnewline
          · exact hstart ⟨x, hx, hnewline⟩

end Python.Csv
