import IntraCloud.Python.Floats
import IntraCloud.Python.Proofs.NumbersProofs

/-!
# What `float` reads, `Decimal` reads, but for its range

Both read the same digits, the one with underscores between two of them and the other with underscores anywhere.
-/

namespace Python

/-! ## Stripped text -/

theorem head_dropWhile {p : Char → Bool} (s : List Char) : ∀ c ∈ (s.dropWhile p).head?, p c = false := by
  intro c hc
  have hnot := List.head?_dropWhile_not p s
  rw [hc] at hnot
  exact hnot

theorem strip_ends (s : List Char) :
    (∀ c ∈ (strip s).head?, isSpace c = false) ∧ ∀ c ∈ (strip s).getLast?, isSpace c = false := by
  constructor
  · intro c hc
    have hprefix : strip s <+: s.dropWhile isSpace := by
      have hsuffix := List.dropWhile_suffix isSpace (l := (s.dropWhile isSpace).reverse)
      have hreversed := List.reverse_prefix.mpr hsuffix
      rwa [List.reverse_reverse] at hreversed
    obtain ⟨rest, hrest⟩ := hprefix
    apply head_dropWhile s c
    rw [← hrest, List.head?_append, hc]
    rfl
  · intro c hc
    unfold strip at hc
    rw [List.getLast?_reverse] at hc
    exact head_dropWhile _ c hc

theorem strip_strip (s : List Char) : strip (strip s) = strip s :=
  trim_of_ends (strip_ends s).1 (strip_ends s).2

theorem isSpace_of_isAsciiSpace {c : Char} (h : isAsciiSpace c = true) : isSpace c = true := by
  unfold isAsciiSpace at h
  simp only [Bool.or_eq_true, beq_iff_eq, Bool.and_eq_true, decide_eq_true_eq] at h
  unfold isSpace
  simp only [Bool.or_eq_true, beq_iff_eq, Bool.and_eq_true, decide_eq_true_eq]
  rcases h with rfl | h
  · decide
  · omega

/-! ## Digits in ASCII -/

theorem decimalDigit?_lt {c : Char} {d : Nat} (h : decimalDigit? c = some d) : d < 10 := by
  unfold decimalDigit? at h
  obtain ⟨z, hz, rfl⟩ := Option.map_eq_some_iff.mp h
  have hfound := List.find?_some (p := fun z => decide (z ≤ c.toNat) && decide (c.toNat < z + 10)) hz
  simp only [Bool.and_eq_true, decide_eq_true_eq] at hfound
  omega

theorem isDigit_digitChar {d : Nat} (h : d < 10) : isDigit (Nat.digitChar d) = true := by
  rw [isDigit_iff, Nat.toNat_digitChar_of_lt_ten h]
  omega

/-- One character of `decimalAndSpaceToAscii`. -/
def spacedAscii (c : Char) : Char :=
  if c.toNat < 128 then c
  else if isSpace c then ' '
  else
    match decimalDigit? c with
    | some d => Nat.digitChar d
    | none => '?'

/-- One character of `numericAsAscii`. -/
def plainAscii (c : Char) : Char :=
  match decimalDigit? c with
  | some d => Nat.digitChar d
  | none => if c.toNat < 128 then c else '?'

theorem decimalAndSpaceToAscii_eq (s : List Char) : decimalAndSpaceToAscii s = s.map spacedAscii := rfl

theorem numericAsAscii_eq (s : List Char) : numericAsAscii s = (s.filter (· ≠ '_')).map plainAscii := rfl

theorem plainAscii_of_ascii {c : Char} (h : c.toNat < 128) : plainAscii c = c := by
  unfold plainAscii
  cases hdigit : isDigit c with
  | true =>
    rw [decimalDigit?_of_isDigit hdigit]
    exact digitChar_of_isDigit hdigit
  | false =>
    rw [decimalDigit?_of_not_digit h hdigit]
    exact if_pos h

theorem spacedAscii_cases (c : Char) :
    c.toNat < 128 ∧ spacedAscii c = c ∨ 128 ≤ c.toNat ∧ isSpace c = true ∧ spacedAscii c = ' ' ∨
      128 ≤ c.toNat ∧ spacedAscii c = plainAscii c ∧ (isDigit (plainAscii c) = true ∨ plainAscii c = '?') := by
  by_cases hascii : c.toNat < 128
  · exact Or.inl ⟨hascii, if_pos hascii⟩
  · refine Or.inr ?_
    rw [Nat.not_lt] at hascii
    by_cases hspace : isSpace c = true
    · refine Or.inl ⟨hascii, hspace, ?_⟩
      rw [spacedAscii, if_neg (Nat.not_lt.mpr hascii), if_pos hspace]
    · refine Or.inr ⟨hascii, ?_⟩
      rw [spacedAscii, if_neg (Nat.not_lt.mpr hascii), if_neg hspace, plainAscii]
      cases hdigit : decimalDigit? c with
      | none => exact ⟨(if_neg (Nat.not_lt.mpr hascii)).symm, Or.inr (if_neg (Nat.not_lt.mpr hascii))⟩
      | some d => exact ⟨rfl, Or.inl (isDigit_digitChar (decimalDigit?_lt hdigit))⟩

theorem spacedAscii_underscore (c : Char) : spacedAscii c = '_' ↔ c = '_' := by
  constructor
  · intro h
    rcases spacedAscii_cases c with ⟨-, heq⟩ | ⟨-, -, heq⟩ | ⟨-, heq, hdigit | hmark⟩
    · rwa [heq] at h
    · rw [heq] at h
      cases h
    · rw [← heq, h] at hdigit
      cases hdigit
    · rw [heq, hmark] at h
      cases h
  · rintro rfl
    rfl

/-- Where no white space is left, `float` and `Decimal` see the same characters. -/
theorem spacedAscii_eq_plainAscii {c : Char} (h : spacedAscii c ≠ ' ') : spacedAscii c = plainAscii c := by
  rcases spacedAscii_cases c with ⟨hascii, heq⟩ | ⟨-, -, heq⟩ | ⟨-, heq, -⟩
  · rw [heq, plainAscii_of_ascii hascii]
  · exact absurd heq h
  · exact heq

theorem filter_map_spacedAscii (s : List Char) :
    (s.map spacedAscii).filter (· ≠ '_') = (s.filter (· ≠ '_')).map spacedAscii := by
  rw [List.filter_map]
  congr 1
  refine List.filter_congr fun c _ => ?_
  simp only [Function.comp_apply, ne_eq, decide_not, Bool.not_inj_iff, decide_eq_decide]
  exact spacedAscii_underscore c

theorem isAsciiSpace_spacedAscii {c : Char} (h : isSpace c = false) : isAsciiSpace (spacedAscii c) = false := by
  rcases spacedAscii_cases c with ⟨-, heq⟩ | ⟨-, hspace, -⟩ | ⟨-, heq, hdigit | hmark⟩
  · rw [heq]
    refine Bool.eq_false_iff.mpr fun hnot => ?_
    rw [isSpace_of_isAsciiSpace hnot] at h
    cases h
  · rw [hspace] at h
    cases h
  · rw [heq]
    refine Bool.eq_false_iff.mpr fun hnot => ?_
    have hnone := isSpace_of_isDigit hdigit
    rw [isSpace_of_isAsciiSpace hnot] at hnone
    cases hnone
  · rw [heq, hmark]
    rfl

theorem stripAscii_stripped {s : List Char} (h : strip s = s) :
    stripAscii (decimalAndSpaceToAscii s) = decimalAndSpaceToAscii s := by
  have hends := strip_ends s
  rw [h] at hends
  apply trim_of_ends
  · intro c hc
    rw [decimalAndSpaceToAscii_eq, List.head?_map] at hc
    obtain ⟨c', hc', rfl⟩ := Option.map_eq_some_iff.mp hc
    exact isAsciiSpace_spacedAscii (hends.1 c' hc')
  · intro c hc
    rw [decimalAndSpaceToAscii_eq, List.getLast?_map] at hc
    obtain ⟨c', hc', rfl⟩ := Option.map_eq_some_iff.mp hc
    exact isAsciiSpace_spacedAscii (hends.2 c' hc')

/-! ## Underscores -/

theorem dropUnderscores?_some {prev : Char} {s t : List Char} (h : dropUnderscores? prev s = some t) :
    t = s.filter (· ≠ '_') := by
  induction s generalizing prev t with
  | nil =>
    unfold dropUnderscores? at h
    split at h
    · cases h
    · exact (Option.some.inj h).symm
  | cons c s ih =>
    unfold dropUnderscores? at h
    split at h
    · next hc =>
      split at h
      · rw [ih h, hc]
        rfl
      · cases h
    · next hc =>
      split at h
      · cases h
      · obtain ⟨t', ht', rfl⟩ := Option.map_eq_some_iff.mp h
        have hkept : decide (c ≠ '_') = true := decide_eq_true hc
        rw [ih ht', List.filter_cons, if_pos hkept]

/-! ## Literals -/

theorem mem_takeSign {s : List Char} {c : Char} (h : c ∈ s) : c = '-' ∨ c = '+' ∨ c ∈ (takeSign s).2 := by
  unfold takeSign
  split
  · next s =>
    rcases List.mem_cons.mp h with rfl | h
    · exact Or.inl rfl
    · exact Or.inr (Or.inr h)
  · next s =>
    rcases List.mem_cons.mp h with rfl | h
    · exact Or.inr (Or.inl rfl)
    · exact Or.inr (Or.inr h)
  · exact Or.inr (Or.inr h)

/-- A character of a finite literal. -/
def LiteralChar (c : Char) : Prop := isDigit c = true ∨ c ∈ ['.', 'e', 'E', '+', '-']

theorem exponent?_chars {s : List Char} {e : Int} (h : exponent? s = some e) : ∀ c ∈ s, LiteralChar c := by
  intro c hc
  unfold exponent? at h
  dsimp only at h
  split at h
  · next hdigits =>
    rcases mem_takeSign hc with rfl | rfl | hc
    · exact Or.inr (by decide)
    · exact Or.inr (by decide)
    · exact Or.inl (List.all_eq_true.mp hdigits.2 c hc)
  · cases h

/-- A part of a text up to a character, and the rest after it. -/
theorem mem_split {p : Char → Bool} {s : List Char} {c : Char} (h : c ∈ s) :
    c ∈ s.takeWhile p ∨ c ∈ (s.dropWhile p).head? ∨ c ∈ (s.dropWhile p).drop 1 := by
  rw [← List.takeWhile_append_dropWhile (p := p) (l := s)] at h
  rcases List.mem_append.mp h with h | h
  · exact Or.inl h
  · refine Or.inr ?_
    cases hrest : s.dropWhile p with
    | nil =>
      rw [hrest] at h
      cases h
    | cons d rest =>
      rw [hrest] at h
      rcases List.mem_cons.mp h with rfl | h
      · exact Or.inl rfl
      · exact Or.inr h

theorem literalParts?_chars {s : List Char} {parts : Nat × Int} (h : literalParts? s = some parts) :
    ∀ c ∈ s, LiteralChar c := by
  intro c hc
  unfold literalParts? at h
  dsimp only at h
  split at h
  · next hdigits =>
    have hall := List.all_eq_true.mp hdigits.2
    obtain ⟨e, he, -⟩ := Option.map_eq_some_iff.mp h
    rcases mem_split (p := fun c => !(c == 'e' || c == 'E')) hc with hc | hc | hc
    · rcases mem_split (p := fun c => decide (c ≠ '.')) hc with hc | hc | hc
      · exact Or.inl (hall c (List.mem_append_left _ hc))
      · have hpoint := head_dropWhile _ c hc
        rw [decide_eq_false_iff_not, Decidable.not_not] at hpoint
        subst hpoint
        exact Or.inr (by decide)
      · exact Or.inl (hall c (List.mem_append_right _ hc))
    · have hmark := head_dropWhile _ c hc
      simp only [Bool.not_eq_false', Bool.or_eq_true, beq_iff_eq] at hmark
      rcases hmark with rfl | rfl
      · exact Or.inr (by decide)
      · exact Or.inr (by decide)
    · split at he
      · next hnil =>
        rw [hnil] at hc
        cases hc
      · exact exponent?_chars he c hc
  · cases h

theorem isFloatLiteral_no_space {s : List Char} (h : isFloatLiteral s = true) : ∀ c ∈ s, c ≠ ' ' := by
  intro c hc
  rintro rfl
  unfold isFloatLiteral at h
  dsimp only at h
  rcases mem_takeSign hc with hsign | hsign | hc
  · cases hsign
  · cases hsign
  · rcases Bool.or_eq_true_iff.mp h with hparts | hname
    · obtain ⟨parts, hparts⟩ := Option.isSome_iff_exists.mp hparts
      rcases literalParts?_chars hparts ' ' hc with hdigit | hmark
      · cases hdigit
      · revert hmark
        decide
    · have hlower : ' ' ∈ lower (takeSign s).2 := List.mem_map.mpr ⟨' ', hc, rfl⟩
      have hnames : ∀ name ∈ infOrNan, ' ' ∉ name := by decide
      exact hnames _ (List.contains_iff_mem.mp hname) hlower

/-- The text that `float` reads is a literal when the underscores are gone. -/
theorem isFloatLiteral_of_isFloatText {s : List Char} (hstrip : strip s = s) (h : isFloatText s = true) :
    isFloatLiteral (numericAsAscii s) = true := by
  unfold isFloatText at h
  rw [stripAscii_stripped hstrip, Option.any_eq_true] at h
  obtain ⟨t, ht, hliteral⟩ := h
  have htext := dropUnderscores?_some ht
  rw [decimalAndSpaceToAscii_eq, filter_map_spacedAscii] at htext
  have hsame : t = numericAsAscii s := by
    rw [htext, numericAsAscii_eq]
    refine List.map_congr_left fun c hc => spacedAscii_eq_plainAscii ?_
    apply isFloatLiteral_no_space hliteral
    rw [htext]
    exact List.mem_map_of_mem hc
  rwa [hsame] at hliteral

/-! ## Decimals -/

theorem parseFinite?_parts (negative : Bool) (s : List Char) :
    parseFinite? negative s = (literalParts? s).bind fun parts => finiteDecimal? negative parts.1 parts.2 := by
  unfold parseFinite? literalParts?
  dsimp only
  split
  · split
    · next hnone =>
      rw [hnone]
      rfl
    · next e he =>
      rw [he]
      rfl
  · rfl

/-- A finite literal begins with a digit or a point. -/
theorem literalParts?_head {s : List Char} {parts : Nat × Int} (h : literalParts? s = some parts) :
    ∃ c t, s = c :: t ∧ (isDigit c = true ∨ c = '.') := by
  cases s with
  | nil => cases h
  | cons c t =>
    refine ⟨c, t, rfl, ?_⟩
    unfold literalParts? at h
    dsimp only at h
    split at h
    · next hdigits =>
      by_cases hmark : (!(c == 'e' || c == 'E')) = true
      · rw [List.takeWhile_cons_of_pos (p := fun c => !(c == 'e' || c == 'E')) hmark] at hdigits
        by_cases hpoint : c = '.'
        · exact Or.inr hpoint
        · have hwhole : decide (c ≠ '.') = true := decide_eq_true hpoint
          rw [List.takeWhile_cons_of_pos (p := fun c => decide (c ≠ '.')) hwhole] at hdigits
          exact Or.inl (List.all_eq_true.mp hdigits.2 c (List.mem_cons_self ..))
      · rw [List.takeWhile_cons_of_neg (p := fun c => !(c == 'e' || c == 'E')) hmark] at hdigits
        exact absurd rfl hdigits.1
    · cases h

theorem lower_literal {s : List Char} {parts : Nat × Int} (h : literalParts? s = some parts) :
    ∃ c, (lower s).head? = some c ∧ (isDigit c = true ∨ c = '.') := by
  obtain ⟨c, t, rfl, hc⟩ := literalParts?_head h
  refine ⟨c, ?_, hc⟩
  rcases hc with hdigit | rfl
  · exact lower_head hdigit
  · rfl

/-- A finite literal is no name of another value. -/
theorem lower_ne_name {s : List Char} {parts : Nat × Int} (h : literalParts? s = some parts) (name : List Char)
    (hname : name.head?.any (fun c => isDigit c || c == '.') = false) (n : Nat) :
    lower s ≠ name ∧ (lower s).take (n + 1) ≠ name := by
  obtain ⟨c, hhead, hc⟩ := lower_literal h
  have hnot : name.head? ≠ some c := by
    intro heq
    rw [heq, Option.any_some, Bool.or_eq_false_iff] at hname
    rcases hc with hc | rfl
    · rw [hc] at hname
      cases hname.1
    · cases hname.2
  constructor
  · rintro rfl
    exact hnot hhead
  · rintro rfl
    rw [List.head?_take, if_neg (Nat.succ_ne_zero n)] at hnot
    exact hnot hhead

theorem parseDecimal?_literal {s : List Char} {parts : Nat × Int} (hstrip : strip s = s)
    (h : literalParts? (unsignedNumber s) = some parts) :
    ∃ negative, parseDecimal? s = finiteDecimal? negative parts.1 parts.2 := by
  refine ⟨(takeSign (numericAsAscii s)).1, ?_⟩
  have hparse : parseFinite? (takeSign (numericAsAscii s)).1 (unsignedNumber s) =
      finiteDecimal? (takeSign (numericAsAscii s)).1 parts.1 parts.2 := by
    rw [parseFinite?_parts, h]
    rfl
  have hinf := lower_ne_name h "inf".toList (by decide) 0
  have hinfinity := lower_ne_name h "infinity".toList (by decide) 0
  have hnan := lower_ne_name h "nan".toList (by decide) 2
  have hsnan := lower_ne_name h "snan".toList (by decide) 3
  unfold parseDecimal?
  rw [hstrip]
  dsimp only
  unfold unsignedNumber at hinf hinfinity hnan hsnan hparse
  rw [if_neg (not_or.mpr ⟨hinf.1, hinfinity.1⟩), if_neg fun hboth => hnan.2 hboth.1,
    if_neg fun hboth => hsnan.2 hboth.1, hparse]

theorem parseDecimal?_name {s : List Char} (hstrip : strip s = s) (h : lower (unsignedNumber s) ∈ infOrNan) :
    (parseDecimal? s).isSome = true := by
  have hlength : (lower (unsignedNumber s)).length = (unsignedNumber s).length := List.length_map _
  unfold parseDecimal?
  rw [hstrip]
  dsimp only
  unfold unsignedNumber at h hlength
  simp only [infOrNan, List.mem_cons, List.not_mem_nil, or_false] at h
  rcases h with h | h | h
  · rw [if_pos (Or.inl h)]
    rfl
  · rw [if_pos (Or.inr h)]
    rfl
  · rw [h] at hlength ⊢
    have hnone : (takeSign (numericAsAscii s)).2.drop 3 = [] := List.drop_eq_nil_of_le (by rw [← hlength]; decide)
    rw [if_neg (by decide), if_pos ⟨by decide, by rw [hnone]; rfl⟩]
    rfl

theorem finiteDecimal?_isSome {negative : Bool} {coefficient : Nat} {exponent : Int} :
    (finiteDecimal? negative coefficient exponent).isSome = true ↔
      exponent + (natText coefficient).length - 1 ≤ maxEmax ∧ minEtiny ≤ exponent := by
  unfold finiteDecimal?
  split
  · next h => exact iff_of_true rfl h
  · next h => exact iff_of_false Bool.false_ne_true h

/-- Of what `float` reads, `Decimal` reads what fits it. -/
theorem parseDecimal?_of_isFloatText {s : List Char} (hstrip : strip s = s) (h : isFloatText s = true) :
    (parseDecimal? s).isSome = true ↔ FitsDecimal s := by
  have hliteral := isFloatLiteral_of_isFloatText hstrip h
  unfold isFloatLiteral at hliteral
  dsimp only at hliteral
  by_cases hparts : (literalParts? (unsignedNumber s)).isSome = true
  · obtain ⟨parts, hparts⟩ := Option.isSome_iff_exists.mp hparts
    obtain ⟨negative, hparse⟩ := parseDecimal?_literal hstrip hparts
    rw [hparse, finiteDecimal?_isSome]
    unfold FitsDecimal
    constructor
    · intro hrange coefficient exponent heq
      rw [hparts] at heq
      obtain rfl := Option.some.inj heq
      exact hrange
    · intro hfits
      exact hfits parts.1 parts.2 hparts
  · have hname : lower (unsignedNumber s) ∈ infOrNan :=
      List.contains_iff_mem.mp ((Bool.or_eq_true_iff.mp hliteral).resolve_left hparts)
    refine iff_of_true (parseDecimal?_name hstrip hname) ?_
    intro coefficient exponent heq
    rw [heq] at hparts
    exact absurd rfl hparts

end Python
