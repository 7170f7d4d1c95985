import IntraCloud.Python.Proofs.JsonProofs
import Mathlib.Algebra.Group.Nat.Defs

/-!
# `Decimal` reads what `str` writes

For the numbers of a column with a precision and a scale: the exponent is not positive, and `str` writes
them with a point or in scientific notation.
-/

namespace Python

/-! ## Stripping -/

theorem dropWhile_of_head {p : Char → Bool} {s : List Char} (h : ∀ c ∈ s.head?, p c = false) :
    s.dropWhile p = s := by
  cases s with
  | nil => rfl
  | cons c s => rw [List.dropWhile_cons, h c rfl]; rfl

theorem trim_of_ends {p : Char → Bool} {s : List Char} (hhead : ∀ c ∈ s.head?, p c = false)
    (hlast : ∀ c ∈ s.getLast?, p c = false) : ((s.dropWhile p).reverse.dropWhile p).reverse = s := by
  have hreverse : ∀ c ∈ s.reverse.head?, p c = false := by
    intro c hc
    rw [List.head?_reverse] at hc
    exact hlast c hc
  rw [dropWhile_of_head hhead, dropWhile_of_head hreverse, List.reverse_reverse]

theorem trim_of_forall {p : Char → Bool} {s : List Char} (h : ∀ c ∈ s, p c = false) :
    ((s.dropWhile p).reverse.dropWhile p).reverse = s :=
  trim_of_ends (fun c hc => h c (List.mem_of_head? hc)) fun c hc => h c (List.mem_of_getLast? hc)

theorem strip_of_forall {s : List Char} (h : ∀ c ∈ s, isSpace c = false) : strip s = s := trim_of_forall h

/-! ## ASCII -/

/-- A character of a number: a digit, a sign, a point, or the `E` of an exponent. -/
def NumberChar (c : Char) : Prop := isDigit c = true ∨ c = '-' ∨ c = '+' ∨ c = '.' ∨ c = 'E'

theorem decimalDigit?_of_not_digit {c : Char} (hlt : c.toNat < 128) (h : isDigit c = false) :
    decimalDigit? c = none := by
  have hzeros : ∀ z ∈ digitZeros, z = 0x30 ∨ 128 ≤ z := by decide
  have hfind : digitZeros.find? (fun z => z ≤ c.toNat && c.toNat < z + 10) = none := by
    rw [List.find?_eq_none]
    intro z hz hc
    rw [Bool.and_eq_true, decide_eq_true_eq, decide_eq_true_eq] at hc
    rcases hzeros z hz with rfl | hz
    · have hdigit := (isDigit_iff c).mpr (by omega)
      rw [h] at hdigit
      cases hdigit
    · omega
  rw [decimalDigit?, hfind]
  rfl

theorem digitChar_of_isDigit {c : Char} (h : isDigit c = true) : Nat.digitChar (c.toNat - 48) = c := by
  have h := (isDigit_iff c).mp h
  apply Char.toNat_inj.mp
  rw [Nat.toNat_digitChar_of_lt_ten (by omega)]
  omega

theorem numericAsAscii_of_ascii {s : List Char} (h : ∀ c ∈ s, c ≠ '_' ∧ c.toNat < 128) :
    numericAsAscii s = s := by
  have hfilter : s.filter (· ≠ '_') = s := by
    rw [List.filter_eq_self]
    intro c hc
    exact decide_eq_true (h c hc).1
  rw [numericAsAscii, hfilter]
  refine Eq.trans (List.map_congr_left fun c hc => ?_) (List.map_id s)
  cases hdigit : isDigit c with
  | true => rw [decimalDigit?_of_isDigit hdigit]; exact digitChar_of_isDigit hdigit
  | false => rw [decimalDigit?_of_not_digit (h c hc).2 hdigit]; exact if_pos (h c hc).2

theorem NumberChar.ascii {c : Char} (h : NumberChar c) : c ≠ '_' ∧ c.toNat < 128 := by
  rcases h with h | rfl | rfl | rfl | rfl
  · refine ⟨ne_of_isDigit h (by decide), ?_⟩
    have h := (isDigit_iff c).mp h
    omega
  all_goals decide

theorem isSpace_of_isDigit {c : Char} (h : isDigit c = true) : isSpace c = false := by
  have h := (isDigit_iff c).mp h
  simp [isSpace]
  omega

theorem NumberChar.not_space {c : Char} (h : NumberChar c) : isSpace c = false := by
  rcases h with h | rfl | rfl | rfl | rfl
  · exact isSpace_of_isDigit h
  all_goals decide

/-! ## Parsing -/

theorem exponent?_signedText (n : Int) : exponent? (signedText n) = some n := by
  have hread : ∀ n : Nat, Nat.ofDigitChars 10 (natText n) 0 = n := fun n => Nat.ofDigitChars_ten_toDigits
  have hdigits : ∀ n : Nat, natText n ≠ [] ∧ (natText n).all isDigit = true := by
    intro n
    refine ⟨natText_ne_nil n, ?_⟩
    rw [List.all_eq_true]
    exact fun c => isDigit_of_mem_natText
  cases n with
  | ofNat n =>
    have hsign : takeSign (signedText (Int.ofNat n)) = (false, natText n) := rfl
    rw [exponent?, hsign]
    dsimp only
    rw [if_pos (hdigits n), hread]
    rfl
  | negSucc n =>
    have hsign : takeSign (signedText (Int.negSucc n)) = (true, natText (n + 1)) := rfl
    rw [exponent?, hsign]
    dsimp only
    rw [if_pos (hdigits (n + 1)), hread]
    rfl

theorem takeWhile_append_stop {p : Char → Bool} {s t : List Char} (hs : ∀ c ∈ s, p c = true)
    (ht : ∀ c ∈ t.head?, p c = false) : (s ++ t).takeWhile p = s := by
  rw [List.takeWhile_append_of_pos hs]
  cases t with
  | nil => rw [List.takeWhile_nil, List.append_nil]
  | cons c t => rw [List.takeWhile_cons, ht c rfl, if_neg Bool.false_ne_true, List.append_nil]

theorem dropWhile_append_stop {p : Char → Bool} {s t : List Char} (hs : ∀ c ∈ s, p c = true)
    (ht : ∀ c ∈ t.head?, p c = false) : (s ++ t).dropWhile p = t := by
  rw [List.dropWhile_append_of_pos hs]
  cases t with
  | nil => rfl
  | cons c t => rw [List.dropWhile_cons, ht c rfl, if_neg Bool.false_ne_true]

/-- The point and the digits after it. -/
def pointText (fraction : List Char) : List Char := if fraction = [] then [] else '.' :: fraction

/-- Digits around a point, and an exponent. -/
theorem parseFinite?_eq (negative : Bool) {whole fraction tail : List Char} {e : Int}
    (hwhole : ∀ c ∈ whole, isDigit c = true) (hfraction : ∀ c ∈ fraction, isDigit c = true)
    (hne : whole ≠ []) (htail : tail = [] ∧ e = 0 ∨ tail = 'E' :: signedText e) :
    parseFinite? negative (whole ++ pointText fraction ++ tail) =
      finiteDecimal? negative (Nat.ofDigitChars 10 (whole ++ fraction) 0) (e - fraction.length) := by
  have hnotE : ∀ c ∈ whole ++ pointText fraction, (!(c == 'e' || c == 'E')) = true := by
    have hdigit : ∀ c, isDigit c = true → (!(c == 'e' || c == 'E')) = true := by
      intro c hc
      have he : c ≠ 'e' := ne_of_isDigit hc (by decide)
      have hE : c ≠ 'E' := ne_of_isDigit hc (by decide)
      simp [he, hE]
    intro c hc
    rcases List.mem_append.mp hc with hc | hc
    · exact hdigit c (hwhole c hc)
    · unfold pointText at hc
      split at hc
      · cases hc
      · rcases List.mem_cons.mp hc with rfl | hc
        · decide
        · exact hdigit c (hfraction c hc)
  have hstop : ∀ c ∈ tail.head?, (!(c == 'e' || c == 'E')) = false := by
    rcases htail with ⟨rfl, _⟩ | rfl
    · intro c hc
      cases hc
    · intro c hc
      obtain rfl := Option.some.inj hc
      decide
  have hpoint : ∀ c ∈ whole, decide (c ≠ '.') = true := by
    intro c hc
    exact decide_eq_true (ne_of_isDigit (hwhole c hc) (by decide))
  have hpointStop : ∀ c ∈ (pointText fraction).head?, decide (c ≠ '.') = false := by
    unfold pointText
    split
    · intro c hc
      cases hc
    · intro c hc
      obtain rfl := Option.some.inj hc
      decide
  have hdrop : (pointText fraction).drop 1 = fraction := by
    unfold pointText
    split
    · rename_i hnil
      rw [hnil]
      rfl
    · rfl
  have hdigits : whole ++ fraction ≠ [] ∧ (whole ++ fraction).all isDigit = true := by
    refine ⟨List.append_ne_nil_of_left_ne_nil hne _, ?_⟩
    rw [List.all_append, Bool.and_eq_true, List.all_eq_true, List.all_eq_true]
    exact ⟨hwhole, hfraction⟩
  have hexponent : (if tail = [] then some 0 else exponent? (tail.drop 1)) = some e := by
    rcases htail with ⟨rfl, rfl⟩ | rfl
    · rfl
    · rw [if_neg (List.cons_ne_nil _ _)]
      exact exponent?_signedText e
  unfold parseFinite?
  dsimp only
  rw [takeWhile_append_stop hnotE hstop, dropWhile_append_stop hnotE hstop,
    takeWhile_append_stop hpoint hpointStop, dropWhile_append_stop hpoint hpointStop, hdrop,
    if_pos hdigits, hexponent]

theorem lower_head {c : Char} {s : List Char} (h : isDigit c = true) : (lower (c :: s)).head? = some c := by
  have hlower : c.toLower = c := by
    have h := (isDigit_iff c).mp h
    unfold Char.toLower
    rw [dif_neg]
    intro hupper
    have hge : 65 ≤ c.toNat := hupper.1
    omega
  rw [lower, List.map_cons, List.head?_cons, hlower]

/-- A number that begins with a digit is finite. -/
theorem parseDecimal?_eq {negative : Bool} {c : Char} {s : List Char} (hc : isDigit c = true)
    (hs : ∀ x ∈ c :: s, NumberChar x) :
    parseDecimal? (signText negative ++ c :: s) = parseFinite? negative (c :: s) := by
  have hchars : ∀ x ∈ signText negative ++ c :: s, NumberChar x := by
    intro x hx
    rcases List.mem_append.mp hx with hx | hx
    · cases negative with
      | false => cases hx
      | true => exact .inr (.inl (List.mem_singleton.mp hx))
    · exact hs x hx
  have hstrip : strip (signText negative ++ c :: s) = signText negative ++ c :: s :=
    strip_of_forall fun x hx => (hchars x hx).not_space
  have hascii := numericAsAscii_of_ascii fun x hx => (hchars x hx).ascii
  have hsign : takeSign (signText negative ++ c :: s) = (negative, c :: s) := by
    cases negative with
    | true => rfl
    | false =>
      show takeSign (c :: s) = (false, c :: s)
      rw [takeSign]
      · intro _ heq
        exact ne_of_isDigit hc (by decide) (List.cons.inj heq).1
      · intro _ heq
        exact ne_of_isDigit hc (by decide) (List.cons.inj heq).1
  have hhead := lower_head (s := s) hc
  have hword : ∀ {word : List Char} {x : Char}, word.head? = some x → isDigit x = false →
      lower (c :: s) ≠ word := by
    intro word x hx hxd heq
    rw [heq, hx] at hhead
    obtain rfl := Option.some.inj hhead
    rw [hc] at hxd
    cases hxd
  have htake : ∀ {word : List Char} {x : Char} (n : Nat), word.head? = some x → isDigit x = false →
      (lower (c :: s)).take (n + 1) ≠ word := by
    intro word x n hx hxd heq
    rw [← heq, List.head?_take, if_neg (Nat.succ_ne_zero n), hhead] at hx
    obtain rfl := Option.some.inj hx
    rw [hc] at hxd
    cases hxd
  unfold parseDecimal?
  rw [hstrip, hascii, hsign]
  dsimp only
  have hinf : ¬ (lower (c :: s) = "inf".toList ∨ lower (c :: s) = "infinity".toList) := by
    rintro (h | h)
    · exact hword rfl (by decide) h
    · exact hword rfl (by decide) h
  have hnan : ¬ ((lower (c :: s)).take 3 = "nan".toList ∧ ((c :: s).drop 3).all isDigit = true) :=
    fun h => htake 2 rfl (by decide) h.1
  have hsnan : ¬ ((lower (c :: s)).take 4 = "snan".toList ∧ ((c :: s).drop 4).all isDigit = true) :=
    fun h => htake 3 rfl (by decide) h.1
  rw [if_neg hinf, if_neg hnan, if_neg hsnan]

/-! ## `str` of a number of a scale -/

/-- What `str` writes of a number after its sign. -/
structure Written (coefficient : Nat) (exponent : Int) (text : List Char) where
  whole : List Char
  fraction : List Char
  tail : List Char
  shift : Int
  text_eq : text = whole ++ pointText fraction ++ tail
  whole_ne : whole ≠ []
  whole_digits : ∀ c ∈ whole, isDigit c = true
  fraction_digits : ∀ c ∈ fraction, isDigit c = true
  tail_eq : tail = [] ∧ shift = 0 ∨ tail = 'E' :: signedText shift
  value : Nat.ofDigitChars 10 (whole ++ fraction) 0 = coefficient
  exponent_eq : shift - fraction.length = exponent
  short : whole.length + fraction.length ≤ (natText coefficient).length + exponent.natAbs + 1

theorem Written.numberChar {coefficient : Nat} {exponent : Int} {text : List Char}
    (w : Written coefficient exponent text) : ∀ c ∈ text, NumberChar c := by
  have hsigned : ∀ n : Int, ∀ c ∈ signedText n, NumberChar c := by
    have hdigits : ∀ (n : Nat), ∀ c ∈ natText n, NumberChar c := fun n c hc => .inl (isDigit_of_mem_natText hc)
    intro n c hc
    cases n with
    | ofNat n =>
      have htext : signedText (Int.ofNat n) = '+' :: natText n := rfl
      rw [htext] at hc
      rcases List.mem_cons.mp hc with rfl | hc
      · exact .inr (.inr (.inl rfl))
      · exact hdigits n c hc
    | negSucc n =>
      have htext : signedText (Int.negSucc n) = '-' :: natText (n + 1) := rfl
      rw [htext] at hc
      rcases List.mem_cons.mp hc with rfl | hc
      · exact .inr (.inl rfl)
      · exact hdigits (n + 1) c hc
  intro c hc
  rw [w.text_eq] at hc
  rcases List.mem_append.mp hc with hc | hc
  · rcases List.mem_append.mp hc with hc | hc
    · exact .inl (w.whole_digits c hc)
    · unfold pointText at hc
      split at hc
      · cases hc
      · rcases List.mem_cons.mp hc with rfl | hc
        · exact .inr (.inr (.inr (.inl rfl)))
        · exact .inl (w.fraction_digits c hc)
  · rcases w.tail_eq with ⟨htail, _⟩ | htail
    · rw [htail] at hc
      cases hc
    · rw [htail] at hc
      rcases List.mem_cons.mp hc with rfl | hc
      · exact .inr (.inr (.inr (.inr rfl)))
      · exact hsigned w.shift c hc

theorem parseDecimal?_written {negative : Bool} {coefficient : Nat} {exponent : Int} {text : List Char}
    (w : Written coefficient exponent text) :
    parseDecimal? (signText negative ++ text) = finiteDecimal? negative coefficient exponent := by
  have hchars := w.numberChar
  have hfinite := parseFinite?_eq negative w.whole_digits w.fraction_digits w.whole_ne w.tail_eq
  rw [← w.text_eq, w.value, w.exponent_eq] at hfinite
  obtain ⟨c, s, hwhole⟩ := List.exists_cons_of_ne_nil w.whole_ne
  have htext : ∃ t, text = c :: t := by
    refine ⟨s ++ pointText w.fraction ++ w.tail, w.text_eq.trans ?_⟩
    rw [hwhole, List.cons_append, List.cons_append]
  have hc : isDigit c = true := w.whole_digits c (by rw [hwhole]; exact List.mem_cons_self ..)
  obtain ⟨t, rfl⟩ := htext
  rw [parseDecimal?_eq hc hchars, hfinite]

theorem ofDigitChars_natText (n : Nat) : Nat.ofDigitChars 10 (natText n) 0 = n :=
  Nat.ofDigitChars_ten_toDigits

theorem length_natText_pos (n : Nat) : 0 < (natText n).length :=
  List.length_pos_iff.mpr (natText_ne_nil n)

theorem pointText_cons {fraction : List Char} (h : fraction ≠ []) : pointText fraction = '.' :: fraction :=
  if_neg h

/-- A part of the digits before a point, and the rest after it. -/
def written_split (coefficient : Nat) {k : Nat} (hpos : 0 < k) (hlt : k < (natText coefficient).length)
    {tail : List Char} {shift : Int} (htail : tail = [] ∧ shift = 0 ∨ tail = 'E' :: signedText shift) :
    Written coefficient (shift - ((natText coefficient).length - k : Nat))
      ((natText coefficient).take k ++ '.' :: (natText coefficient).drop k ++ tail) where
  whole := (natText coefficient).take k
  fraction := (natText coefficient).drop k
  tail := tail
  shift := shift
  text_eq := by
    rw [pointText_cons]
    intro hnil
    have hlength := congrArg List.length hnil
    rw [List.length_drop, List.length_nil] at hlength
    omega
  whole_ne := by
    intro hnil
    have hlength := congrArg List.length hnil
    rw [List.length_take, List.length_nil] at hlength
    omega
  whole_digits c hc := isDigit_of_mem_natText (List.mem_of_mem_take hc)
  fraction_digits c hc := isDigit_of_mem_natText (List.mem_of_mem_drop hc)
  tail_eq := htail
  value := by rw [List.take_append_drop, ofDigitChars_natText]
  exponent_eq := by rw [List.length_drop]
  short := by
    rw [List.length_take, List.length_drop]
    omega

/-- All digits, without a point. -/
def written_whole (coefficient : Nat) {tail : List Char} {shift : Int}
    (htail : tail = [] ∧ shift = 0 ∨ tail = 'E' :: signedText shift) :
    Written coefficient shift (natText coefficient ++ tail) where
  whole := natText coefficient
  fraction := []
  tail := tail
  shift := shift
  text_eq := by rw [pointText, if_pos rfl, List.append_nil]
  whole_ne := natText_ne_nil coefficient
  whole_digits c hc := isDigit_of_mem_natText hc
  fraction_digits c hc := absurd hc List.not_mem_nil
  tail_eq := htail
  value := by rw [List.append_nil, ofDigitChars_natText]
  exponent_eq := Int.sub_zero shift
  short := by
    rw [List.length_nil]
    omega

/-- Zeros before the digits. -/
def written_zeros (coefficient zeros : Nat) :
    Written coefficient (-(zeros + (natText coefficient).length : Nat))
      ('0' :: '.' :: (List.replicate zeros '0' ++ natText coefficient)) where
  whole := ['0']
  fraction := List.replicate zeros '0' ++ natText coefficient
  tail := []
  shift := 0
  text_eq := by
    rw [pointText_cons (List.append_ne_nil_of_right_ne_nil _ (natText_ne_nil coefficient)), List.append_nil]
    rfl
  whole_ne := List.cons_ne_nil _ _
  whole_digits c hc := by
    rw [List.mem_singleton.mp hc]
    decide
  fraction_digits c hc := by
    rcases List.mem_append.mp hc with hc | hc
    · rw [List.eq_of_mem_replicate hc]
      decide
    · exact isDigit_of_mem_natText hc
  tail_eq := .inl ⟨rfl, rfl⟩
  value := by
    rw [Nat.ofDigitChars_append, Nat.ofDigitChars_append, Nat.ofDigitChars_replicate_zero]
    exact ofDigitChars_natText coefficient
  exponent_eq := by
    rw [List.length_append, List.length_replicate, Int.zero_sub]
  short := by
    rw [List.length_append, List.length_replicate, List.length_singleton]
    omega

/-- `str` of a number whose exponent is not positive. -/
theorem nonempty_written (negative : Bool) (coefficient e : Nat) :
    ∃ text, Nonempty (Written coefficient (-(e : Int)) text) ∧
      (Decimal.finite negative coefficient (-(e : Int))).text = signText negative ++ text := by
  have hpos := length_natText_pos coefficient
  unfold Decimal.text
  dsimp only
  generalize hlen : (natText coefficient).length = len at hpos
  by_cases hplain : -(e : Int) ≤ 0 ∧ -6 < -(e : Int) + len
  · rw [if_pos hplain, if_pos rfl, List.append_nil]
    refine ⟨_, ?_, rfl⟩
    by_cases hzeros : -(e : Int) + len ≤ 0
    · rw [if_pos hzeros]
      have hwritten := written_zeros coefficient (-(e : Int) + len).natAbs
      have he : (-(((-(e : Int) + len).natAbs + (natText coefficient).length : Nat) : Int)) = -(e : Int) := by
        omega
      rw [he] at hwritten
      exact ⟨hwritten⟩
    · rw [if_neg hzeros]
      by_cases hwhole : (len : Int) ≤ -(e : Int) + len
      · obtain rfl : e = 0 := by omega
        have hzero : (-((0 : Nat) : Int) + len).toNat - len = 0 := by omega
        rw [if_pos hwhole, hzero, List.replicate_zero]
        exact ⟨written_whole coefficient (.inl ⟨rfl, rfl⟩)⟩
      · rw [if_neg hwhole]
        have hwritten := written_split coefficient (k := (-(e : Int) + len).toNat) (by omega) (by omega)
          (.inl ⟨rfl, rfl⟩)
        have he : (0 : Int) - ((natText coefficient).length - (-(e : Int) + len).toNat : Nat) = -(e : Int) := by
          omega
        rw [he, List.append_nil] at hwritten
        exact ⟨hwritten⟩
  · have hsmall : -(e : Int) + len ≤ -6 := by omega
    have hone : ¬ (1 : Int) ≤ 0 := by omega
    have hne : ¬ -(e : Int) + len = 1 := by omega
    rw [if_neg hplain, if_neg hone, if_neg hne]
    by_cases hsingle : (len : Int) ≤ 1
    · have hzero : (1 : Int).toNat - len = 0 := by omega
      rw [if_pos hsingle, hzero, List.replicate_zero, List.append_nil, List.append_assoc]
      refine ⟨_, ?_, rfl⟩
      have hwritten := written_whole coefficient (.inr (rfl : _ = 'E' :: signedText (-(e : Int) + len - 1)))
      have he : -(e : Int) + len - 1 = -(e : Int) := by omega
      rw [he] at hwritten ⊢
      exact ⟨hwritten⟩
    · rw [if_neg hsingle, List.append_assoc]
      refine ⟨_, ?_, rfl⟩
      have hwritten := written_split coefficient (k := 1) (by omega) (by omega)
        (.inr (rfl : _ = 'E' :: signedText (-(e : Int) + len - 1)))
      have he : -(e : Int) + len - 1 - ((natText coefficient).length - 1 : Nat) = -(e : Int) := by omega
      rw [he] at hwritten
      exact ⟨hwritten⟩

theorem length_natText_le {n k : Nat} (hk : 0 < k) (h : n < 10 ^ k) : (natText n).length ≤ k :=
  (Nat.length_toDigits_le_iff (by decide) hk).mpr h

theorem length_signedText_le (n : Int) : (signedText n).length ≤ n.natAbs + 2 := by
  have hnat : ∀ n : Nat, (natText n).length ≤ n + 1 := by
    intro n
    exact length_natText_le (Nat.succ_pos n) (Nat.lt_trans (Nat.lt_succ_self n) (Nat.lt_pow_self (by decide)))
  cases n with
  | ofNat n =>
    have htext : signedText (Int.ofNat n) = '+' :: natText n := rfl
    have hn := hnat n
    rw [htext, List.length_cons]
    show (natText n).length + 1 ≤ n + 2
    omega
  | negSucc n =>
    have htext : signedText (Int.negSucc n) = '-' :: natText (n + 1) := rfl
    have hn := hnat (n + 1)
    rw [htext, List.length_cons]
    show (natText (n + 1)).length + 1 ≤ (n + 1) + 2
    omega

theorem Written.length_le {coefficient : Nat} {exponent : Int} {text : List Char}
    (w : Written coefficient exponent text) :
    text.length ≤ 2 * ((natText coefficient).length + exponent.natAbs) + exponent.natAbs + 6 := by
  have hshort := w.short
  have hexponent := w.exponent_eq
  have hlength := congrArg List.length w.text_eq
  rw [List.length_append, List.length_append] at hlength
  have hpoint : (pointText w.fraction).length ≤ w.fraction.length + 1 := by
    unfold pointText
    split
    · exact Nat.zero_le _
    · exact Nat.le_refl _
  have htail : w.tail.length ≤ w.shift.natAbs + 3 := by
    rcases w.tail_eq with ⟨htail, _⟩ | htail
    · rw [htail]
      exact Nat.zero_le _
    · have hsigned := length_signedText_le w.shift
      rw [htail, List.length_cons]
      omega
  omega

/-- `Decimal` reads what `str` writes of a number of a scale. -/
theorem parseDecimal?_text {negative : Bool} {coefficient e : Nat} (he : e ≤ 1000)
    (hcoefficient : (natText coefficient).length ≤ 1000) :
    parseDecimal? (Decimal.finite negative coefficient (-(e : Int))).text =
        some (.finite negative coefficient (-(e : Int))) ∧
      (∀ c ∈ (Decimal.finite negative coefficient (-(e : Int))).text, isSpace c = false) ∧
      0 < (Decimal.finite negative coefficient (-(e : Int))).text.length ∧
      (Decimal.finite negative coefficient (-(e : Int))).text.length ≤ 6000 := by
  obtain ⟨text, ⟨w⟩, htext⟩ := nonempty_written negative coefficient e
  have hlength := w.length_le
  have hrange : -(e : Int) + (natText coefficient).length - 1 ≤ maxEmax ∧ minEtiny ≤ -(e : Int) := by
    unfold maxEmax minEtiny
    omega
  have hsign : (signText negative).length ≤ 1 := by
    cases negative <;> decide
  rw [htext, List.length_append]
  refine ⟨?_, ?_, ?_, ?_⟩
  · rw [parseDecimal?_written w, finiteDecimal?, if_pos hrange]
  · intro c hc
    rcases List.mem_append.mp hc with hc | hc
    · cases negative with
      | false => cases hc
      | true =>
        rw [List.mem_singleton.mp hc]
        decide
    · exact (w.numberChar c hc).not_space
  · have hpos := List.length_pos_iff.mpr w.whole_ne
    have heq := congrArg List.length w.text_eq
    rw [List.length_append, List.length_append] at heq
    omega
  · omega

end Python
