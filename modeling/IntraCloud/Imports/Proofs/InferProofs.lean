import IntraCloud.Imports.Infer
import IntraCloud.Python.Proofs.FloatsProofs
import Mathlib.Data.List.TakeWhile
import Mathlib.Tactic.Push

/-!
# When the inferred type is sound for the import

Boolean words, dates and times are read the same way twice. Digits and decimals are not.
-/

namespace Imports

open Accounts Databases Python

variable {values : List (List Char)} {v : List Char}

/-! ## Values that are not blank -/

theorem mem_nonEmpty : v ∈ nonEmpty values ↔ v ≠ [] ∧ ∃ raw ∈ values, strip raw = v := by
  unfold nonEmpty
  rw [List.mem_filter, List.mem_map, Bool.not_eq_true', List.isEmpty_eq_false_iff]
  exact And.comm

theorem strip_of_mem_nonEmpty (h : v ∈ nonEmpty values) : strip v = v := by
  obtain ⟨-, raw, -, rfl⟩ := mem_nonEmpty.mp h
  exact strip_strip raw

/-- The conversion of `v` raises no exception. -/
def Converts (v : List Char) (dataType : DataType) : Prop := ∃ p, convertStripped v dataType = .ok p

theorem infersSoundly_stripped :
    InfersSoundly values ↔ ∀ v ∈ nonEmpty values, Converts v (inferType values) := by
  unfold InfersSoundly Converts convertValue
  constructor
  · intro h v hv
    obtain ⟨hne, raw, hraw, rfl⟩ := mem_nonEmpty.mp hv
    obtain ⟨p, hp⟩ := h raw hraw hne
    rw [if_neg hne] at hp
    exact ⟨p, hp⟩
  · intro h raw hraw hne
    obtain ⟨p, hp⟩ := h (strip raw) (mem_nonEmpty.mpr ⟨hne, raw, hraw, rfl⟩)
    refine ⟨p, ?_⟩
    rw [if_neg hne]
    exact hp

/-! ## Conversions -/

theorem converts_text : Converts v .text := ⟨.str v, rfl⟩

theorem converts_boolean (h : lower v ∈ booleanValues) : Converts v .boolean := by
  unfold Converts convertStripped
  rcases List.mem_append.mp h with htrue | hfalse
  · exact ⟨.bool true, if_pos htrue⟩
  · by_cases htrue : lower v ∈ booleanTrueValues
    · exact ⟨.bool true, if_pos htrue⟩
    · refine ⟨.bool false, ?_⟩
      simp only
      rw [if_neg htrue, if_pos hfalse]

theorem converts_integer : Converts v .integer ↔ (parseInt? v).isSome = true := by
  unfold Converts convertStripped
  cases parseInt? v with
  | none => exact iff_of_false (fun ⟨_, hp⟩ => by cases hp) Bool.false_ne_true
  | some n => exact iff_of_true ⟨_, rfl⟩ rfl

theorem converts_decimal : Converts v .decimal ↔ (parseDecimal? v).isSome = true := by
  unfold Converts convertStripped
  cases parseDecimal? v with
  | none => exact iff_of_false (fun ⟨_, hp⟩ => by cases hp) Bool.false_ne_true
  | some d => exact iff_of_true ⟨_, rfl⟩ rfl

theorem converts_date (h : looksLikeDate v = true) : Converts v .date := by
  obtain ⟨d, hd⟩ := Option.isSome_iff_exists.mp h
  refine ⟨.date d.date, ?_⟩
  simp only [convertStripped, hd]

theorem converts_datetime (h : looksLikeDatetime v = true) : Converts v .datetime := by
  obtain ⟨format, hformat, hmatch⟩ := List.any_eq_true.mp h
  have hfound : (datetimeFormats.findSome? (strptime · v)).isSome = true :=
    List.findSome?_isSome_iff.mpr ⟨format, hformat, hmatch⟩
  obtain ⟨d, hd⟩ := Option.isSome_iff_exists.mp hfound
  refine ⟨.datetime d, ?_⟩
  simp only [convertStripped, hd]

/-! ## Integers -/

/-- One character of a text of digits. -/
def isDigitCharacter (c : Char) : Bool :=
  (decimalDigit? c).isSome || otherDigits.any fun (first, last) => first ≤ c.toNat && c.toNat ≤ last

theorem isDigitText_iff {s : List Char} : isDigitText s = true ↔ s ≠ [] ∧ ∀ c ∈ s, isDigitCharacter c = true := by
  unfold isDigitText
  rw [Bool.and_eq_true, Bool.not_eq_true', List.isEmpty_eq_false_iff, List.all_eq_true]
  rfl

theorem ne_of_isDigitCharacter {c d : Char} (hc : isDigitCharacter c = true) (hd : isDigitCharacter d = false) :
    c ≠ d := by
  rintro rfl
  rw [hd] at hc
  cases hc

theorem restDigits?_cons {c : Char} {s : List Char} (hc : c ≠ '_') :
    restDigits? (c :: s) = (decimalDigit? c).bind fun d => (restDigits? s).map (d :: ·) := by
  rw [restDigits?.eq_def (c :: s)]
  split
  · next heq => cases heq
  · next heq => exact absurd (List.cons.inj heq).1 hc
  · next heq =>
    obtain ⟨rfl, rfl⟩ := List.cons.inj heq
    cases decimalDigit? c with
    | none => rfl
    | some d => cases restDigits? s <;> rfl

/-- Without underscores, each character is a digit of the number. -/
theorem restDigits?_plain {s : List Char} (h : ∀ c ∈ s, c ≠ '_') :
    ((∀ c ∈ s, (decimalDigit? c).isSome = true) → ∃ ds, restDigits? s = some ds ∧ ds.length = s.length) ∧
      ((∃ c ∈ s, decimalDigit? c = none) → restDigits? s = none) := by
  induction s with
  | nil => exact ⟨fun _ => ⟨[], rfl, rfl⟩, fun ⟨_, hc, _⟩ => by cases hc⟩
  | cons c s ih =>
    obtain ⟨hall, hnone⟩ := ih fun c hc => h c (List.mem_cons_of_mem _ hc)
    rw [restDigits?_cons (h c (List.mem_cons_self ..))]
    constructor
    · intro hdigits
      obtain ⟨d, hd⟩ := Option.isSome_iff_exists.mp (hdigits c (List.mem_cons_self ..))
      obtain ⟨ds, hds, hlength⟩ := hall fun c hc => hdigits c (List.mem_cons_of_mem _ hc)
      refine ⟨d :: ds, ?_, ?_⟩
      · rw [hd, hds]
        rfl
      · rw [List.length_cons, List.length_cons, hlength]
    · rintro ⟨c', hc', hnot⟩
      rcases List.mem_cons.mp hc' with rfl | hc'
      · rw [hnot]
        rfl
      · rw [hnone ⟨c', hc', hnot⟩]
        cases decimalDigit? c <;> rfl

theorem digits?_cons (c : Char) (s : List Char) :
    digits? (c :: s) = (decimalDigit? c).bind fun d => (restDigits? s).map (d :: ·) := by
  rw [digits?]
  cases decimalDigit? c with
  | none => rfl
  | some d => cases restDigits? s <;> rfl

/-- A text of digits, of whatever kind. -/
theorem digits?_of_isDigitText {s : List Char} (h : isDigitText s = true) :
    ((∀ c ∈ s, (decimalDigit? c).isSome = true) → ∃ ds, digits? s = some ds ∧ ds.length = s.length) ∧
      ((∃ c ∈ s, decimalDigit? c = none) → digits? s = none) := by
  obtain ⟨hne, hchars⟩ := isDigitText_iff.mp h
  cases s with
  | nil => exact absurd rfl hne
  | cons c s =>
    have hplain : ∀ d ∈ c :: s, d ≠ '_' := fun d hd => ne_of_isDigitCharacter (hchars d hd) (by decide)
    have hrest := restDigits?_plain hplain
    rwa [restDigits?_cons (hplain c (List.mem_cons_self ..)), ← digits?_cons] at hrest

/-- Where the sign stands. -/
theorem parseInt?_dashed {s : List Char} (h : isDigitText s = true) (n : Nat) :
    (parseInt? (List.replicate n '-' ++ s)).isSome = true ↔
      n ≤ 1 ∧ s.length ≤ maxStrDigits ∧ ∀ c ∈ s, (decimalDigit? c).isSome = true := by
  have hunsigned : (∃ ds, digits? s = some ds ∧ ds.length ≤ maxStrDigits) ↔
      s.length ≤ maxStrDigits ∧ ∀ c ∈ s, (decimalDigit? c).isSome = true := by
    obtain ⟨hall, hnone⟩ := digits?_of_isDigitText h
    by_cases hdigits : ∀ c ∈ s, (decimalDigit? c).isSome = true
    · obtain ⟨ds, hds, hlength⟩ := hall hdigits
      constructor
      · rintro ⟨ds', hds', hle⟩
        obtain rfl := Option.some.inj (hds.symm.trans hds')
        exact ⟨hlength ▸ hle, hdigits⟩
      · rintro ⟨hle, -⟩
        exact ⟨ds, hds, hlength ▸ hle⟩
    · refine iff_of_false ?_ fun hboth => hdigits hboth.2
      rintro ⟨ds, hds, -⟩
      push Not at hdigits
      obtain ⟨c, hc, hnot⟩ := hdigits
      rw [hnone ⟨c, hc, Option.not_isSome_iff_eq_none.mp hnot⟩] at hds
      cases hds
  have hparse : ∀ (negative : Bool) (t : List Char), takeSign t = (negative, s) →
      ((parseInt? t).isSome = true ↔ ∃ ds, digits? s = some ds ∧ ds.length ≤ maxStrDigits) := by
    intro negative t ht
    unfold parseInt?
    rw [ht]
    dsimp only
    cases digits? s with
    | none => exact iff_of_false Bool.false_ne_true fun ⟨_, hds, _⟩ => by cases hds
    | some ds =>
      dsimp only
      by_cases hle : ds.length ≤ maxStrDigits
      · rw [if_neg (Nat.not_lt.mpr hle)]
        exact iff_of_true rfl ⟨ds, rfl, hle⟩
      · rw [if_pos (Nat.not_le.mp hle)]
        refine iff_of_false Bool.false_ne_true ?_
        rintro ⟨ds', hds, hle'⟩
        exact hle (Option.some.inj hds ▸ hle')
  obtain ⟨hne, hchars⟩ := isDigitText_iff.mp h
  match n with
  | 0 =>
    have hsign : takeSign s = (false, s) := by
      unfold takeSign
      split
      · exact absurd rfl (ne_of_isDigitCharacter (hchars '-' (List.mem_cons_self ..)) (by decide))
      · exact absurd rfl (ne_of_isDigitCharacter (hchars '+' (List.mem_cons_self ..)) (by decide))
      · rfl
    rw [List.replicate_zero, List.nil_append, hparse false s hsign, hunsigned]
    exact ⟨fun hs => ⟨Nat.zero_le 1, hs⟩, fun hs => hs.2⟩
  | 1 =>
    rw [hparse true _ rfl, hunsigned]
    exact ⟨fun hs => ⟨Nat.le_refl 1, hs⟩, fun hs => hs.2⟩
  | n + 2 =>
    refine iff_of_false ?_ fun hs => absurd hs.1 (by omega)
    have hnone : parseInt? (List.replicate (n + 2) '-' ++ s) = none := by
      rw [List.replicate_succ, List.replicate_succ, List.cons_append, List.cons_append]
      have hdash : digits? ('-' :: (List.replicate n '-' ++ s)) = none := by
        rw [digits?_cons]
        rfl
      unfold parseInt?
      rw [show takeSign ('-' :: '-' :: (List.replicate n '-' ++ s)) = (true, '-' :: (List.replicate n '-' ++ s))
        from rfl]
      dsimp only
      rw [hdash]
    rw [hnone]
    exact Bool.false_ne_true

theorem takeWhile_dashes (v : List Char) :
    v.takeWhile (· == '-') = List.replicate (v.takeWhile (· == '-')).length '-' :=
  List.eq_replicate_of_mem fun _ hc => eq_of_beq (List.mem_takeWhile_imp (p := (· == '-')) hc)

theorem converts_integer_iff (h : isDashedDigits v = true) : Converts v .integer ↔ IsIntegerText v := by
  have hv : List.replicate (v.takeWhile (· == '-')).length '-' ++ v.dropWhile (· == '-') = v := by
    rw [← takeWhile_dashes, List.takeWhile_append_dropWhile]
  rw [converts_integer, ← hv, parseInt?_dashed h, hv]
  rfl

/-! ## Decimals -/

theorem converts_decimal_iff (hstrip : strip v = v) (h : isDecimal v = true) :
    Converts v .decimal ↔ FitsDecimal v := by
  rw [converts_decimal]
  exact parseDecimal?_of_isFloatText hstrip (Bool.and_eq_true_iff.mp h).1

theorem toLower_eq_e {c : Char} (h : c.toLower = 'e') : c = 'e' ∨ c = 'E' := by
  unfold Char.toLower at h
  split at h
  · next hupper =>
    right
    have hval : c.val + ('a'.val - 'A'.val) = 'e'.val := congrArg Char.val h
    apply Char.ext
    rw [← UInt32.add_sub_cancel c.val ('a'.val - 'A'.val), hval]
    rfl
  · exact Or.inl h

/-- Digits and dashes are no decimal. -/
theorem not_isDecimal_of_isDashedDigits (h : isDashedDigits v = true) : isDecimal v = false := by
  have hchars : ∀ c ∈ v, c = '-' ∨ isDigitCharacter c = true := by
    intro c hc
    rw [← List.takeWhile_append_dropWhile (p := (· == '-')) (l := v)] at hc
    rcases List.mem_append.mp hc with hc | hc
    · exact Or.inl (eq_of_beq (List.mem_takeWhile_imp (p := (· == '-')) hc))
    · exact Or.inr ((isDigitText_iff.mp h).2 c hc)
  have hnot : ∀ c, c ≠ '-' → isDigitCharacter c = false → c ∉ v := by
    intro c hdash hdigit hc
    rcases hchars c hc with rfl | hc
    · exact hdash rfl
    · rw [hdigit] at hc
      cases hc
  have hpoint : v.contains '.' = false := by
    rw [List.contains_eq_mem, decide_eq_false_iff_not]
    exact hnot '.' (by decide) (by decide)
  have hexponent : (lower v).contains 'e' = false := by
    rw [List.contains_eq_mem, decide_eq_false_iff_not]
    intro hmem
    obtain ⟨c, hc, hlower⟩ := List.mem_map.mp hmem
    rcases toLower_eq_e hlower with rfl | rfl
    · exact hnot 'e' (by decide) (by decide) hc
    · exact hnot 'E' (by decide) (by decide) hc
  unfold isDecimal
  rw [hpoint, hexponent, Bool.or_self, Bool.and_false]

/-! ## Inference -/

/-- The inferred type by what all values look like. -/
theorem inferType_cases (values : List (List Char)) :
    nonEmpty values = [] ∨ (∀ v ∈ nonEmpty values, lower v ∈ booleanValues) ∧ inferType values = .boolean ∨
      (¬ ∀ v ∈ nonEmpty values, lower v ∈ booleanValues) ∧
        ((∀ v ∈ nonEmpty values, isDashedDigits v = true) ∧ inferType values = .integer ∨
          (¬ ∀ v ∈ nonEmpty values, isDashedDigits v = true) ∧
            ((∀ v ∈ nonEmpty values, isDecimal v = true) ∧ inferType values = .decimal ∨
              (¬ ∀ v ∈ nonEmpty values, isDecimal v = true) ∧
                ((∀ v ∈ nonEmpty values, looksLikeDate v = true) ∧ inferType values = .date ∨
                  (∀ v ∈ nonEmpty values, looksLikeDatetime v = true) ∧ inferType values = .datetime ∨
                    inferType values = .text))) := by
  have hall : ∀ p : List Char → Bool, (nonEmpty values).all p = true ↔ ∀ v ∈ nonEmpty values, p v = true :=
    fun p => List.all_eq_true
  unfold inferType
  dsimp only
  by_cases hempty : nonEmpty values = []
  · exact Or.inl hempty
  · rw [if_neg fun h => hempty (List.isEmpty_iff.mp h)]
    refine Or.inr ?_
    by_cases hboolean : ∀ v ∈ nonEmpty values, lower v ∈ booleanValues
    · exact Or.inl ⟨hboolean, if_pos ((hall _).mpr fun v hv => List.contains_iff_mem.mpr (hboolean v hv))⟩
    · rw [if_neg fun h => hboolean fun v hv => List.contains_iff_mem.mp ((hall _).mp h v hv)]
      refine Or.inr ⟨hboolean, ?_⟩
      by_cases hdigits : ∀ v ∈ nonEmpty values, isDashedDigits v = true
      · exact Or.inl ⟨hdigits, if_pos ((hall _).mpr hdigits)⟩
      · rw [if_neg fun h => hdigits ((hall _).mp h)]
        refine Or.inr ⟨hdigits, ?_⟩
        by_cases hdecimal : ∀ v ∈ nonEmpty values, isDecimal v = true
        · exact Or.inl ⟨hdecimal, if_pos ((hall _).mpr hdecimal)⟩
        · rw [if_neg fun h => hdecimal ((hall _).mp h)]
          refine Or.inr ⟨hdecimal, ?_⟩
          by_cases hdate : ∀ v ∈ nonEmpty values, looksLikeDate v = true
          · exact Or.inl ⟨hdate, if_pos ((hall _).mpr hdate)⟩
          · rw [if_neg fun h => hdate ((hall _).mp h)]
            refine Or.inr ?_
            by_cases hdatetime : ∀ v ∈ nonEmpty values, looksLikeDatetime v = true
            · exact Or.inl ⟨hdatetime, if_pos ((hall _).mpr hdatetime)⟩
            · exact Or.inr (if_neg fun h => hdatetime ((hall _).mp h))

/-- No list of values is all digits and all decimals. -/
theorem not_all_isDecimal (hne : nonEmpty values ≠ [])
    (hdigits : ∀ v ∈ nonEmpty values, isDashedDigits v = true) : ¬ ∀ v ∈ nonEmpty values, isDecimal v = true := by
  intro hdecimal
  obtain ⟨v, hv⟩ := List.exists_mem_of_ne_nil _ hne
  have hnot := not_isDecimal_of_isDashedDigits (hdigits v hv)
  rw [hdecimal v hv] at hnot
  cases hnot

/-- The inferred type is sound for the import where digits are integers and decimals fit a `Decimal`. -/
theorem infersSoundly_iff (values : List (List Char)) : InfersSoundly values ↔ Inferable values := by
  rw [infersSoundly_stripped]
  unfold Inferable
  by_cases hempty : nonEmpty values = []
  · rw [hempty]
    exact iff_of_true (fun v hv => by cases hv) (Or.inl fun v hv => by cases hv)
  rcases (inferType_cases values).resolve_left hempty with ⟨hboolean, htype⟩ | ⟨hboolean, hcases⟩
  · rw [htype]
    exact iff_of_true (fun v hv => converts_boolean (hboolean v hv)) (Or.inl hboolean)
  rcases hcases with ⟨hdigits, htype⟩ | ⟨hdigits, hcases⟩
  · rw [htype]
    have hintegers : (∀ v ∈ nonEmpty values, Converts v .integer) ↔ ∀ v ∈ nonEmpty values, IsIntegerText v :=
      forall₂_congr fun v hv => converts_integer_iff (hdigits v hv)
    rw [hintegers]
    constructor
    · intro hall
      exact Or.inr ⟨fun _ => hall, fun hdecimal => absurd hdecimal (not_all_isDecimal hempty hdigits)⟩
    · intro h
      exact (h.resolve_left hboolean).1 hdigits
  rcases hcases with ⟨hdecimal, htype⟩ | ⟨hdecimal, hcases⟩
  · rw [htype]
    have hdecimals : (∀ v ∈ nonEmpty values, Converts v .decimal) ↔ ∀ v ∈ nonEmpty values, FitsDecimal v :=
      forall₂_congr fun v hv => converts_decimal_iff (strip_of_mem_nonEmpty hv) (hdecimal v hv)
    rw [hdecimals]
    constructor
    · intro hall
      exact Or.inr ⟨fun h => absurd h hdigits, fun _ => hall⟩
    · intro h
      exact (h.resolve_left hboolean).2 hdecimal
  · have hsound : ∀ v ∈ nonEmpty values, Converts v (inferType values) := by
      intro v hv
      rcases hcases with ⟨hdate, htype⟩ | ⟨hdatetime, htype⟩ | htype
      · rw [htype]
        exact converts_date (hdate v hv)
      · rw [htype]
        exact converts_datetime (hdatetime v hv)
      · rw [htype]
        exact converts_text
    exact iff_of_true hsound (Or.inr ⟨fun h => absurd h hdigits, fun h => absurd h hdecimal⟩)

/-- A column of superscripts is inferred to be of integers, which `int()` does not read. -/
theorem not_infersSoundly_superscript :
    inferType ["12".toList, "5²".toList] = .integer ∧ ¬ InfersSoundly ["12".toList, "5²".toList] := by
  have htype : inferType ["12".toList, "5²".toList] = .integer := by decide
  refine ⟨htype, fun hsound => ?_⟩
  obtain ⟨p, hp⟩ := hsound "5²".toList (List.mem_cons_of_mem _ (List.mem_cons_self ..)) (by decide)
  rw [htype] at hp
  have hrefused : convertValue "5²".toList .integer = .error (.notAnInteger "5²".toList) := rfl
  rw [hrefused] at hp
  cases hp

end Imports
