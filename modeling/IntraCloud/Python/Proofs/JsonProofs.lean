import IntraCloud.Python.JsonText
import Mathlib.Tactic.SplitIfs

/-!
# What `json.dumps` writes, `json.loads` reads

The round trip of every writable value, with the lemmas on strings, numbers and white space it takes.
-/

namespace Python

/-! ## Digits -/

theorem isDigit_of_mem_natText {n : Nat} {c : Char} (h : c ∈ natText n) : isDigit c = true := by
  have h : c.isDigit = true := Nat.isDigit_of_mem_toDigits (by omega) (by omega) h
  simp only [Char.isDigit, Bool.and_eq_true, decide_eq_true_eq] at h
  simp only [isDigit, Bool.and_eq_true, decide_eq_true_eq]
  exact h

theorem isDigit_iff (c : Char) : isDigit c = true ↔ 48 ≤ c.toNat ∧ c.toNat ≤ 57 := by
  simp only [isDigit, Bool.and_eq_true, decide_eq_true_eq]
  exact Iff.rfl

theorem ne_of_isDigit {c d : Char} (hc : isDigit c = true) (hd : isDigit d = false) : c ≠ d := by
  rintro rfl
  rw [hd] at hc
  exact Bool.noConfusion hc

theorem decimalDigit?_of_isDigit {c : Char} (h : isDigit c = true) :
    decimalDigit? c = some (c.toNat - 48) := by
  have h := (isDigit_iff c).mp h
  have hc : (decide (0x30 ≤ c.toNat) && decide (c.toNat < 0x30 + 10)) = true := by
    simp only [Bool.and_eq_true, decide_eq_true_eq]
    omega
  rw [decimalDigit?, digitZeros, List.find?, hc]
  rfl

theorem restDigits?_of_isDigit {s : List Char} (h : ∀ c ∈ s, isDigit c = true) :
    restDigits? s = some (s.map fun c => c.toNat - 48) := by
  induction s with
  | nil => rfl
  | cons c s ih =>
    have hc := h c (List.mem_cons_self ..)
    have hs := ih fun d hd => h d (List.mem_cons_of_mem _ hd)
    have hne : c ≠ '_' := ne_of_isDigit hc (by decide)
    rw [restDigits?, decimalDigit?_of_isDigit hc, hs]
    · rfl
    · intro _ _ heq
      exact absurd heq hne

theorem digits?_of_isDigit {s : List Char} (hne : s ≠ []) (h : ∀ c ∈ s, isDigit c = true) :
    digits? s = some (s.map fun c => c.toNat - 48) := by
  cases s with
  | nil => exact absurd rfl hne
  | cons c s =>
    have hc := h c (List.mem_cons_self ..)
    have hs := restDigits?_of_isDigit fun d hd => h d (List.mem_cons_of_mem _ hd)
    rw [digits?, decimalDigit?_of_isDigit hc, hs]
    rfl

theorem ofDigits_natText (n : Nat) : ofDigits ((natText n).map fun c => c.toNat - 48) = n := by
  have h : Nat.ofDigitChars 10 (natText n) 0 = n := Nat.ofDigitChars_ten_toDigits
  rw [Nat.ofDigitChars_eq_foldl] at h
  rw [ofDigits, List.foldl_map]
  exact h

theorem natText_ne_nil (n : Nat) : natText n ≠ [] := Nat.toDigits_ne_nil

theorem takeSign_natText (n : Nat) : takeSign (natText n) = (false, natText n) := by
  have h : ∀ c ∈ natText n, isDigit c = true := fun c => isDigit_of_mem_natText
  cases hn : natText n with
  | nil => rfl
  | cons c s =>
    have hc := h c (by rw [hn]; exact List.mem_cons_self ..)
    rw [takeSign]
    · intro _ heq
      exact ne_of_isDigit hc (by decide) (List.cons.inj heq).1
    · intro _ heq
      exact ne_of_isDigit hc (by decide) (List.cons.inj heq).1

theorem digits?_natText (n : Nat) :
    digits? (natText n) = some ((natText n).map fun c => c.toNat - 48) :=
  digits?_of_isDigit (natText_ne_nil n) fun _ => isDigit_of_mem_natText

theorem parseInt?_natText {n : Nat} (h : (natText n).length ≤ maxStrDigits) :
    parseInt? (natText n) = some (n : Int) := by
  have hlen : ¬ maxStrDigits < ((natText n).map fun c => c.toNat - 48).length := by
    rw [List.length_map]
    omega
  rw [parseInt?, takeSign_natText]
  simp only [digits?_natText, if_neg hlen, ofDigits_natText]
  rfl

theorem parseInt?_neg {n : Nat} (h : (natText n).length ≤ maxStrDigits) :
    parseInt? ('-' :: natText n) = some (-(n : Int)) := by
  have hlen : ¬ maxStrDigits < ((natText n).map fun c => c.toNat - 48).length := by
    rw [List.length_map]
    omega
  rw [parseInt?, takeSign]
  simp only [digits?_natText, if_neg hlen, ofDigits_natText]
  rfl

/-- `int` reads what `str` writes. -/
theorem parseInt?_intText {n : Int} (h : (natText n.natAbs).length ≤ maxStrDigits) :
    parseInt? (intText n) = some n := by
  cases n with
  | ofNat n => exact parseInt?_natText h
  | negSucc n => exact parseInt?_neg h

/-- The text of a positive number has no leading zero. -/
theorem natText_head {n : Nat} {c : Char} {s : List Char} (h : natText n = c :: s) :
    c = '0' → s = [] := by
  induction n using Nat.strongRecOn generalizing s with
  | ind n ih =>
    intro hc
    rw [natText, Nat.toDigits_eq_if (by omega)] at h
    split at h
    · exact (List.cons.inj h).2.symm
    · rename_i hn
      have hlt : n / 10 < n := by omega
      cases hd : natText (n / 10) with
      | nil => exact absurd hd (natText_ne_nil _)
      | cons d t =>
        rw [natText] at hd
        rw [hd, List.cons_append] at h
        obtain ⟨rfl, rfl⟩ := List.cons.inj h
        have ht := ih _ hlt hd hc
        -- the number without its last digit is then zero
        have hzero : n / 10 = 0 := by
          have hval := ofDigits_natText (n / 10)
          rw [natText, hd, ht, hc] at hval
          exact hval.symm
        omega

namespace Json

/-! ## Strings -/

theorem hexValue?_hexDigit (n : Nat) : hexValue? (hexDigit n) = some (n % 16) := by
  have h : ∀ d : Fin 16, hexValue? ("0123456789abcdef".toList.getD d.val '0') = some d.val := by decide
  exact h ⟨n % 16, Nat.mod_lt _ (by omega)⟩

theorem codeUnit?_hexText {n : Nat} (h : n < 0x10000) :
    codeUnit? (hexDigit (n / 16 / 16 / 16)) (hexDigit (n / 16 / 16)) (hexDigit (n / 16))
      (hexDigit n) = some n := by
  simp only [codeUnit?, hexValue?_hexDigit, Option.bind_eq_bind, Option.bind_some, Option.pure_def,
    Option.some.injEq]
  omega

theorem scanString_plainUnit (lone : Option Char) {n : Nat} (s : List Char)
    (h : n < 0xD800 ∨ 0xE000 ≤ n) (hlt : n < 0x10000) :
    scanString lone none (unitText n ++ s) = prepend (Char.ofNat n) (scanString lone none s) := by
  simp only [unitText, hexText, List.nil_append, List.cons_append]
  rw [scanString, codeUnit?_hexText hlt]
  simp only []
  rw [if_neg (by omega), if_neg (by omega)]
  rfl

theorem scanString_highUnit (lone : Option Char) {n : Nat} (s : List Char) (hle : 0xD800 ≤ n)
    (hlt : n < 0xDC00) :
    scanString lone none (unitText n ++ s) = scanString lone (some n) s := by
  simp only [unitText, hexText, List.nil_append, List.cons_append]
  rw [scanString, codeUnit?_hexText (by omega)]
  simp only []
  rw [if_pos (by omega)]
  rfl

theorem scanString_lowUnit (lone : Option Char) (high : Nat) {n : Nat} (s : List Char)
    (hle : 0xDC00 ≤ n) (hlt : n < 0xE000) :
    scanString lone (some high) (unitText n ++ s) =
      prepend (joinSurrogates high n) (scanString lone none s) := by
  simp only [unitText, hexText, List.nil_append, List.cons_append]
  rw [scanString, codeUnit?_hexText (by omega)]
  simp only []
  rw [if_neg (by omega), if_pos (by omega)]

theorem scanString_escape (lone : Option Char) {c d : Char} (s : List Char) (hc : c ≠ 'u')
    (h : simpleEscape? c = some d) :
    scanString lone none ('\\' :: c :: s) = prepend d (scanString lone none s) := by
  rw [scanString, h]
  · rfl
  · intro _ _ _ _ _ heq _
    exact hc heq

theorem scanString_plain (lone : Option Char) {c : Char} (s : List Char) (hquote : c ≠ '"')
    (hslash : c ≠ '\\') (h : 0x1f < c.toNat) :
    scanString lone none (c :: s) = prepend c (scanString lone none s) := by
  rw [scanString]
  · rw [if_neg]
    · rfl
    · rintro (hle | heq)
      · omega
      · exact hslash heq
  · exact hquote
  · intro _ _ _ _ _ heq _
    exact hslash heq
  · intro _ _ heq _
    exact hslash heq

/-- A character of Unicode is no surrogate. -/
theorem char_range (c : Char) : c.toNat < 0xD800 ∨ 0xE000 ≤ c.toNat ∧ c.toNat < 0x110000 := by
  rcases c.valid with h | ⟨hlo, hhi⟩
  · exact .inl h
  · exact .inr ⟨Nat.succ_le_of_lt hlo, hhi⟩

theorem scanString_escapeChar (lone : Option Char) (c : Char) (s : List Char) :
    scanString lone none (escapeChar c ++ s) = prepend c (scanString lone none s) := by
  have hrange := char_range c
  unfold escapeChar
  split_ifs with hquote hslash hn hr ht hf hb hplain hunit
  · subst hquote
    exact scanString_escape lone s (by decide) rfl
  · subst hslash
    exact scanString_escape lone s (by decide) rfl
  · subst hn
    exact scanString_escape lone s (by decide) rfl
  · subst hr
    exact scanString_escape lone s (by decide) rfl
  · subst ht
    exact scanString_escape lone s (by decide) rfl
  · subst hf
    exact scanString_escape lone s (by decide) rfl
  · subst hb
    exact scanString_escape lone s (by decide) rfl
  · have hlow : 32 ≤ c.toNat := hplain.1
    exact scanString_plain lone s hquote hslash (by omega)
  · rw [scanString_plainUnit lone s (by omega) hunit, Char.ofNat_toNat]
  · -- a surrogate pair: the high one is kept until the low one joins it
    have hjoin : joinSurrogates (0xD800 + (c.toNat - 0x10000) / 1024)
        (0xDC00 + (c.toNat - 0x10000) % 1024) = c := by
      have hnat : 0x10000 + 1024 * (0xD800 + (c.toNat - 0x10000) / 1024 - 0xD800) +
          (0xDC00 + (c.toNat - 0x10000) % 1024 - 0xDC00) = c.toNat := by omega
      rw [joinSurrogates, hnat, Char.ofNat_toNat]
    rw [List.append_assoc, scanString_highUnit lone _ (by omega) (by omega),
      scanString_lowUnit lone _ s (by omega) (by omega), hjoin]

theorem scanString_flatMap (lone : Option Char) (s rest : List Char) :
    scanString lone none (s.flatMap escapeChar ++ '"' :: rest) = some (s, rest) := by
  induction s with
  | nil => rfl
  | cons c s ih =>
    rw [List.flatMap_cons, List.append_assoc, scanString_escapeChar, ih]
    rfl

/-- The text of a string as the scanner meets it, after its opening quote. -/
theorem stringText_append (s rest : List Char) :
    stringText s ++ rest = '"' :: (s.flatMap escapeChar ++ '"' :: rest) := by
  simp only [stringText, List.cons_append, List.append_assoc, List.nil_append]

/-! ## White space -/

theorem skipWhitespace_cons {c : Char} (s : List Char) (h : isWhitespace c = false) :
    skipWhitespace (c :: s) = c :: s := by
  rw [skipWhitespace, List.dropWhile_cons_of_neg]
  simp only [h, Bool.false_eq_true, not_false_eq_true]

theorem skipWhitespace_append {w : List Char} (s : List Char) (h : ∀ c ∈ w, isWhitespace c = true) :
    skipWhitespace (w ++ s) = skipWhitespace s := by
  rw [skipWhitespace, List.dropWhile_append_of_pos h, skipWhitespace]

theorem skipWhitespace_space (s : List Char) : skipWhitespace (' ' :: s) = skipWhitespace s := rfl

theorem isWhitespace_of_mem_newline {indent : Option Nat} {level : Nat} {c : Char}
    (h : c ∈ newline indent level) : isWhitespace c = true := by
  cases indent with
  | none => exact absurd h (List.not_mem_nil)
  | some n =>
    rcases List.mem_cons.mp h with rfl | h
    · rfl
    · rw [(List.mem_replicate.mp h).2]
      rfl

/-- What may follow a number. -/
def Ends (s : List Char) : Prop :=
  ∀ c ∈ s.head?, isDigit c = false ∧ c ≠ '.' ∧ c ≠ 'e' ∧ c ≠ 'E'

theorem ends_nil : Ends [] := fun c hc => absurd hc (Option.not_mem_none c)

theorem ends_cons {c : Char} (s : List Char)
    (h : isDigit c = false ∧ c ≠ '.' ∧ c ≠ 'e' ∧ c ≠ 'E') : Ends (c :: s) := by
  intro d hd
  rw [Option.mem_def, List.head?_cons, Option.some.injEq] at hd
  exact hd ▸ h

theorem ends_newline (indent : Option Nat) (level : Nat) {s : List Char} (h : Ends s) :
    Ends (newline indent level ++ s) := by
  cases indent with
  | none => exact h
  | some n => exact ends_cons _ (by decide)

theorem ends_separator (indent : Option Nat) (level : Nat) (s : List Char) :
    Ends (separator indent level ++ s) := by
  cases indent with
  | none => exact ends_cons _ (by decide)
  | some n => exact ends_cons _ (by decide)

/-! ## Numbers -/

theorem isDigit_head {s : List Char} (h : Ends s) : ∀ c ∈ s.head?, isDigit c = false :=
  fun c hc => (h c hc).1

theorem takeDigits_append {ds s : List Char} (hds : ∀ c ∈ ds, isDigit c = true)
    (hs : ∀ c ∈ s.head?, isDigit c = false) : takeDigits (ds ++ s) = (ds, s) := by
  have htake : s.takeWhile isDigit = [] := by
    cases s with
    | nil => rfl
    | cons c s => rw [List.takeWhile_cons_of_neg (by simp [hs c rfl])]
  have hdrop : s.dropWhile isDigit = s := by
    cases s with
    | nil => rfl
    | cons c s => rw [List.dropWhile_cons_of_neg (by simp [hs c rfl])]
  rw [takeDigits, List.takeWhile_append_of_pos hds, List.dropWhile_append_of_pos hds, htake, hdrop,
    List.append_nil]

theorem takeInteger_natText (n : Nat) {s : List Char} (hs : Ends s) :
    takeInteger (natText n ++ s) = some (natText n, s) := by
  have hdigits : ∀ c ∈ natText n, isDigit c = true := fun _ => isDigit_of_mem_natText
  cases h : natText n with
  | nil => exact absurd h (natText_ne_nil n)
  | cons c t =>
    rw [h] at hdigits
    by_cases hc : c = '0'
    · rw [natText_head h hc, hc]
      rfl
    · have hd := hdigits c (List.mem_cons_self ..)
      have htake := takeDigits_append hdigits (isDigit_head hs)
      rw [List.cons_append] at htake ⊢
      rw [takeInteger, if_neg hc, if_pos hd, htake]

theorem takeFraction_of_ends {s : List Char} (h : Ends s) : takeFraction s = ([], s) := by
  unfold takeFraction
  split
  · exact absurd rfl (h '.' rfl).2.1
  · rfl

theorem takeExponent_of_ends {s : List Char} (h : Ends s) : takeExponent s = ([], s) := by
  cases s with
  | nil => rfl
  | cons c s =>
    have hc := (h c rfl).2.2
    have hne : ¬ (c = 'e' ∨ c = 'E') := by
      rintro (he | hE)
      · exact hc.1 he
      · exact hc.2 hE
    unfold takeExponent
    exact if_neg hne

theorem cons_ne_of_isDigit {c d : Char} {s t : List Char} (hc : isDigit c = true)
    (hd : isDigit d = false) : c :: s ≠ d :: t :=
  fun heq => ne_of_isDigit hc hd (List.cons.inj heq).1

/-- A natural number starts with a digit. -/
theorem natText_cons (n : Nat) : ∃ c t, natText n = c :: t ∧ isDigit c = true := by
  cases h : natText n with
  | nil => exact absurd h (natText_ne_nil n)
  | cons c t =>
    have hmem : c ∈ natText n := by
      rw [h]
      exact List.mem_cons_self ..
    exact ⟨c, t, rfl, isDigit_of_mem_natText hmem⟩

theorem scanNumber_natText {n : Nat} {s : List Char} (hn : (natText n).length ≤ maxStrDigits)
    (hs : Ends s) : scanNumber (natText n ++ s) = some (.int n, s) := by
  have hint := takeInteger_natText n hs
  have hparse := parseInt?_natText hn
  rw [scanNumber]
  · simp only [hint, takeFraction_of_ends hs, takeExponent_of_ends hs, and_self, if_true,
      List.nil_append, hparse, Option.map_some]
  · intro t heq
    obtain ⟨c, u, h, hc⟩ := natText_cons n
    rw [h, List.cons_append] at heq
    exact cons_ne_of_isDigit hc (by decide) heq

theorem scanNumber_neg {n : Nat} {s : List Char} (hn : (natText n).length ≤ maxStrDigits)
    (hs : Ends s) : scanNumber ('-' :: (natText n ++ s)) = some (.int (-(n : Int)), s) := by
  have hint := takeInteger_natText n hs
  have hparse := parseInt?_neg hn
  rw [scanNumber]
  simp only [hint, takeFraction_of_ends hs, takeExponent_of_ends hs, and_self, if_true,
    List.cons_append, List.nil_append, hparse, Option.map_some]

theorem scanNumber_intText {n : Int} {s : List Char}
    (hn : (natText n.natAbs).length ≤ maxStrDigits) (hs : Ends s) :
    scanNumber (intText n ++ s) = some (.int n, s) := by
  cases n with
  | ofNat n => exact scanNumber_natText hn hs
  | negSucc n => exact scanNumber_neg hn hs

/-! A `float` literal. -/

theorem takeInteger_whole {whole s : List Char}
    (h : whole = ['0'] ∨ whole.head? ≠ some '0' ∧ whole ≠ [] ∧ ∀ c ∈ whole, isDigit c = true)
    (hs : ∀ c ∈ s.head?, isDigit c = false) : takeInteger (whole ++ s) = some (whole, s) := by
  rcases h with rfl | ⟨hzero, hne, hdigits⟩
  · rfl
  · cases whole with
    | nil => exact absurd rfl hne
    | cons c t =>
      have hc : c ≠ '0' := fun heq => hzero (congrArg some heq)
      have htake := takeDigits_append hdigits hs
      rw [List.cons_append] at htake ⊢
      rw [takeInteger, if_neg hc, if_pos (hdigits c (List.mem_cons_self ..)), htake]

theorem takeFraction_digits {ds s : List Char} (hne : ds ≠ []) (hdigits : ∀ c ∈ ds, isDigit c = true)
    (hs : ∀ c ∈ s.head?, isDigit c = false) : takeFraction ('.' :: ds ++ s) = ('.' :: ds, s) := by
  rw [List.cons_append, takeFraction, takeDigits_append hdigits hs]
  cases ds with
  | nil => exact absurd rfl hne
  | cons c t => rfl

theorem takeFraction_of_head {s : List Char} (h : ∀ c ∈ s.head?, c ≠ '.') :
    takeFraction s = ([], s) := by
  unfold takeFraction
  split
  · exact absurd rfl (h '.' rfl)
  · rfl

theorem takeExponent_digits {mark : Char} {ds s : List Char} (hmark : mark = '+' ∨ mark = '-')
    (hne : ds ≠ []) (hdigits : ∀ c ∈ ds, isDigit c = true) (hs : ∀ c ∈ s.head?, isDigit c = false) :
    takeExponent ('e' :: mark :: ds ++ s) = ('e' :: mark :: ds, s) := by
  have htake := takeDigits_append hdigits hs
  cases ds with
  | nil => exact absurd rfl hne
  | cons c t =>
    rcases hmark with rfl | rfl
    · simp only [List.cons_append] at htake ⊢
      simp only [takeExponent, true_or, if_true, htake]
      rfl
    · simp only [List.cons_append] at htake ⊢
      simp only [takeExponent, true_or, if_true, htake]
      rfl

/-- The number of a literal without its sign. -/
theorem scan_unsigned {whole fraction exponent s : List Char}
    (hwhole : whole = ['0'] ∨ whole.head? ≠ some '0' ∧ whole ≠ [] ∧ ∀ c ∈ whole, isDigit c = true)
    (hfraction : fraction = [] ∨ ∃ ds, fraction = '.' :: ds ∧ ds ≠ [] ∧ ∀ c ∈ ds, isDigit c = true)
    (hexponent : exponent = [] ∨ ∃ mark ds, exponent = 'e' :: mark :: ds ∧ (mark = '+' ∨ mark = '-') ∧
      ds ≠ [] ∧ ∀ c ∈ ds, isDigit c = true) (hs : Ends s) :
    takeInteger (whole ++ (fraction ++ (exponent ++ s))) = some (whole, fraction ++ (exponent ++ s)) ∧
      takeFraction (fraction ++ (exponent ++ s)) = (fraction, exponent ++ s) ∧
      takeExponent (exponent ++ s) = (exponent, s) := by
  -- an exponent starts with a letter, a fraction with a point: neither is a digit
  have hexp : takeExponent (exponent ++ s) = (exponent, s) := by
    rcases hexponent with rfl | ⟨mark, ds, rfl, hmark, hne, hds⟩
    · exact takeExponent_of_ends hs
    · exact takeExponent_digits hmark hne hds (isDigit_head hs)
  have hback : ∀ c ∈ (exponent ++ s).head?, isDigit c = false ∧ c ≠ '.' := by
    rcases hexponent with rfl | ⟨mark, ds, rfl, -⟩
    · exact fun c hc => ⟨(hs c hc).1, (hs c hc).2.1⟩
    · intro c hc
      obtain rfl : 'e' = c := Option.some.inj hc
      decide
  have hfrac : takeFraction (fraction ++ (exponent ++ s)) = (fraction, exponent ++ s) := by
    rcases hfraction with rfl | ⟨ds, rfl, hne, hds⟩
    · exact takeFraction_of_head fun c hc => (hback c hc).2
    · exact takeFraction_digits hne hds fun c hc => (hback c hc).1
  have hfront : ∀ c ∈ (fraction ++ (exponent ++ s)).head?, isDigit c = false := by
    rcases hfraction with rfl | ⟨ds, rfl, -⟩
    · exact fun c hc => (hback c hc).1
    · intro c hc
      obtain rfl : '.' = c := Option.some.inj hc
      decide
  exact ⟨takeInteger_whole hwhole hfront, hfrac, hexp⟩

theorem whole_cons {whole : List Char}
    (h : whole = ['0'] ∨ whole.head? ≠ some '0' ∧ whole ≠ [] ∧ ∀ c ∈ whole, isDigit c = true) :
    ∃ c t, whole = c :: t ∧ isDigit c = true := by
  rcases h with rfl | ⟨-, hne, hdigits⟩
  · exact ⟨'0', [], rfl, rfl⟩
  · obtain ⟨c, t, rfl⟩ := List.exists_cons_of_ne_nil hne
    exact ⟨c, t, rfl, hdigits c (List.mem_cons_self ..)⟩

/-- A literal starts with a digit, or a sign and a digit. -/
theorem floatRepr_cons {literal : List Char} (h : FloatRepr literal) :
    ∃ c t, isDigit c = true ∧ (literal = c :: t ∨ literal = '-' :: c :: t) := by
  obtain ⟨sign, whole, fraction, exponent, rfl, hsign, hwhole, -⟩ := h
  obtain ⟨c, t, rfl, hc⟩ := whole_cons hwhole
  refine ⟨c, t ++ (fraction ++ exponent), hc, ?_⟩
  rcases hsign with rfl | rfl
  · exact .inl rfl
  · exact .inr rfl

theorem scanNumber_float {literal s : List Char} (h : FloatRepr literal) (hs : Ends s) :
    scanNumber (literal ++ s) = some (.float literal, s) := by
  obtain ⟨sign, whole, fraction, exponent, rfl, hsign, hwhole, hfraction, hexponent, hsome⟩ := h
  obtain ⟨hint, hfrac, hexp⟩ := scan_unsigned hwhole hfraction hexponent hs
  have hnot : ¬ (fraction = [] ∧ exponent = []) := fun h => hsome.elim (· h.1) (· h.2)
  have hassoc : sign ++ (whole ++ (fraction ++ exponent)) ++ s =
      sign ++ (whole ++ (fraction ++ (exponent ++ s))) := by
    simp only [List.append_assoc]
  rw [hassoc]
  rcases hsign with rfl | rfl
  · rw [List.nil_append, scanNumber]
    · simp only [hint, hfrac, hexp, hnot, if_false, List.nil_append, List.append_assoc]
    · intro t heq
      obtain ⟨c, u, rfl, hc⟩ := whole_cons hwhole
      exact cons_ne_of_isDigit hc (by decide) heq
  · rw [List.singleton_append, scanNumber]
    simp only [hint, hfrac, hexp, hnot, if_false, List.append_assoc, List.cons_append]

theorem scanOnce_scalar (lone : Option Char) (fuel : Nat) {c : Char} (s : List Char)
    (hquote : c ≠ '"') (hbrace : c ≠ '{') (hbracket : c ≠ '[') :
    scanOnce lone (fuel + 1) (c :: s) = scanScalar (c :: s) := by
  rw [scanOnce]
  · exact List.cons_ne_nil _ _
  · intro t heq
    exact hquote (List.cons.inj heq).1
  · intro t heq
    exact hbrace (List.cons.inj heq).1
  · intro t heq
    exact hbracket (List.cons.inj heq).1

theorem scanScalar_digit {c : Char} (s : List Char) (hc : isDigit c = true) :
    scanScalar (c :: s) = scanNumber (c :: s) := by
  rw [scanScalar]
  all_goals
    intro t heq
    exact cons_ne_of_isDigit hc (by decide) heq

theorem scanScalar_neg {c : Char} (s : List Char) (hc : isDigit c = true) :
    scanScalar ('-' :: c :: s) = scanNumber ('-' :: c :: s) := by
  rw [scanScalar]
  all_goals
    intro t heq
  case x_5 => exact cons_ne_of_isDigit hc (by decide) (List.cons.inj heq).2
  all_goals exact absurd (List.cons.inj heq).1 (by decide)

theorem scanOnce_intText (lone : Option Char) (fuel : Nat) {n : Int} {s : List Char}
    (hn : (natText n.natAbs).length ≤ maxStrDigits) (hs : Ends s) :
    scanOnce lone (fuel + 1) (intText n ++ s) = some (.int n, s) := by
  have hscan := scanNumber_intText hn hs
  cases n with
  | ofNat n =>
    obtain ⟨c, t, h, hc⟩ := natText_cons n
    have hquote : c ≠ '"' := ne_of_isDigit hc (by decide)
    have hbrace : c ≠ '{' := ne_of_isDigit hc (by decide)
    have hbracket : c ≠ '[' := ne_of_isDigit hc (by decide)
    rw [intText, h, List.cons_append] at hscan ⊢
    rw [scanOnce_scalar lone fuel _ hquote hbrace hbracket, scanScalar_digit _ hc, hscan]
  | negSucc n =>
    obtain ⟨c, t, h, hc⟩ := natText_cons (n + 1)
    rw [intText, h, List.cons_append, List.cons_append] at hscan ⊢
    rw [scanOnce_scalar lone fuel _ (by decide) (by decide) (by decide), scanScalar_neg _ hc, hscan]

theorem scanOnce_float (lone : Option Char) (fuel : Nat) {literal s : List Char} (h : FloatRepr literal)
    (hs : Ends s) : scanOnce lone (fuel + 1) (literal ++ s) = some (.float literal, s) := by
  have hscan := scanNumber_float h hs
  obtain ⟨c, t, hc, rfl | rfl⟩ := floatRepr_cons h
  · have hquote : c ≠ '"' := ne_of_isDigit hc (by decide)
    have hbrace : c ≠ '{' := ne_of_isDigit hc (by decide)
    have hbracket : c ≠ '[' := ne_of_isDigit hc (by decide)
    rw [List.cons_append] at hscan ⊢
    rw [scanOnce_scalar lone fuel _ hquote hbrace hbracket, scanScalar_digit _ hc, hscan]
  · rw [List.cons_append, List.cons_append] at hscan ⊢
    rw [scanOnce_scalar lone fuel _ (by decide) (by decide) (by decide), scanScalar_neg _ hc, hscan]

/-! ## Values -/

/-- What follows the comma of a separator. -/
theorem separator_eq (indent : Option Nat) (level : Nat) :
    ∃ w, separator indent level = ',' :: w ∧ ∀ c ∈ w, isWhitespace c = true := by
  cases indent with
  | none => exact ⟨[' '], rfl, fun c hc => List.mem_singleton.mp hc ▸ rfl⟩
  | some n => exact ⟨newline (some n) level, rfl, fun _ => isWhitespace_of_mem_newline⟩

theorem isWhitespace_of_isDigit {c : Char} (h : isDigit c = true) : isWhitespace c = false := by
  have hne : ∀ d, isDigit d = false → (c == d) = false :=
    fun d hd => beq_eq_false_iff_ne.mpr (ne_of_isDigit h hd)
  rw [isWhitespace, hne ' ' (by decide), hne '\t' (by decide), hne '\n' (by decide),
    hne '\r' (by decide)]
  rfl

/-- No value starts with white space or closes a list. -/
theorem text_head (indent : Option Nat) (level : Nat) {v : PyJson} (h : Writable v) :
    ∃ c t, text indent level v = c :: t ∧ isWhitespace c = false ∧ c ≠ ']' := by
  match v, h with
  | .null, _ => exact ⟨_, _, rfl, by decide⟩
  | .bool true, _ => exact ⟨_, _, rfl, by decide⟩
  | .bool false, _ => exact ⟨_, _, rfl, by decide⟩
  | .int (.ofNat n), _ =>
    obtain ⟨c, t, hn, hc⟩ := natText_cons n
    exact ⟨c, t, hn, isWhitespace_of_isDigit hc, ne_of_isDigit hc (by decide)⟩
  | .int (.negSucc n), _ => exact ⟨_, _, rfl, by decide⟩
  | .float literal, h =>
    obtain ⟨c, t, hc, rfl | rfl⟩ := floatRepr_cons h
    · exact ⟨c, t, rfl, isWhitespace_of_isDigit hc, ne_of_isDigit hc (by decide)⟩
    · exact ⟨_, _, rfl, by decide⟩
  | .str s, _ => exact ⟨_, _, rfl, by decide⟩
  | .list [], _ => exact ⟨_, _, rfl, by decide⟩
  | .list (_ :: _), _ => exact ⟨_, _, rfl, by decide⟩
  | .dict [], _ => exact ⟨_, _, rfl, by decide⟩
  | .dict (_ :: _), _ => exact ⟨_, _, rfl, by decide⟩

theorem skipWhitespace_text (indent : Option Nat) (level : Nat) {v : PyJson} (s : List Char)
    (h : Writable v) :
    skipWhitespace (text indent level v ++ s) = text indent level v ++ s := by
  obtain ⟨c, t, ht, hc, -⟩ := text_head indent level h
  rw [ht, List.cons_append, skipWhitespace_cons _ hc]

theorem setMember_of_not_mem {k : List Char} (v : PyJson) {members : List (List Char × PyJson)}
    (h : k ∉ members.map (·.1)) : setMember k v members = members ++ [(k, v)] := by
  induction members with
  | nil => rfl
  | cons m members ih =>
    rw [List.map_cons, List.mem_cons, not_or] at h
    rw [setMember, if_neg (Ne.symm h.1), ih h.2, List.cons_append]

theorem ends_itemsText (indent : Option Nat) (level out : Nat) (vs : List PyJson) (s : List Char) :
    Ends (itemsText indent level vs ++ (newline indent out ++ ']' :: s)) := by
  cases vs with
  | nil => exact ends_newline indent out (ends_cons s (by decide))
  | cons v vs =>
    rw [itemsText, List.append_assoc]
    exact ends_separator indent level _

theorem ends_membersText (indent : Option Nat) (level out : Nat) (ms : List (List Char × PyJson))
    (s : List Char) : Ends (membersText indent level ms ++ (newline indent out ++ '}' :: s)) := by
  cases ms with
  | nil => exact ends_newline indent out (ends_cons s (by decide))
  | cons m ms =>
    rw [membersText, List.append_assoc]
    exact ends_separator indent level _

mutual

/-- The scanner reads a text back, whatever may follow it. -/
theorem scanOnce_text (lone : Option Char) (indent : Option Nat) : ∀ (v : PyJson) (level fuel : Nat)
    (s : List Char), Writable v → 2 * (text indent level v).length ≤ fuel → Ends s →
      scanOnce lone fuel (text indent level v ++ s) = some (v, s)
  | v, level, 0, s, hv, hfuel, _ => by
    obtain ⟨c, t, ht, -⟩ := text_head indent level hv
    rw [ht, List.length_cons] at hfuel
    omega
  | .null, level, fuel + 1, s, _, _, _ => rfl
  | .bool true, level, fuel + 1, s, _, _, _ => rfl
  | .bool false, level, fuel + 1, s, _, _, _ => rfl
  | .int n, level, fuel + 1, s, hv, _, hs => scanOnce_intText lone fuel hv hs
  | .float literal, level, fuel + 1, s, hv, _, hs => scanOnce_float lone fuel hv hs
  | .str t, level, fuel + 1, s, _, _, _ => by
    rw [text, stringText_append, scanOnce, scanString_flatMap]
    rfl
  | .list [], level, fuel + 1, s, _, _, _ => rfl
  | .list (v :: vs), level, fuel + 1, s, hv, hfuel, _ => by
    obtain ⟨c, t, ht, hc, hclose⟩ := text_head indent (level + 1) hv.1
    simp only [text, List.length_cons, List.length_append] at hfuel
    obtain ⟨fuel, rfl⟩ : ∃ f, fuel = f + 1 := ⟨fuel - 1, by omega⟩
    have hfirst := scanOnce_text lone indent v (level + 1) fuel _ hv.1 (by omega)
      (ends_itemsText indent (level + 1) level vs s)
    have hrest := scanItems_text lone indent vs (level + 1) level fuel v _ s hv.2 (by omega) hfirst
    simp only [text, List.cons_append, List.append_assoc, List.nil_append]
    rw [scanOnce, skipWhitespace_append _ fun _ => isWhitespace_of_mem_newline,
      skipWhitespace_text indent (level + 1) _ hv.1]
    rw [ht, List.cons_append] at hrest ⊢
    split
    · rename_i heq
      exact absurd (List.cons.inj heq).1 hclose
    · rw [hrest]
      rfl
  | .dict [], level, fuel + 1, s, _, _, _ => rfl
  | .dict ((k, v) :: ms), level, fuel + 1, s, hv, hfuel, _ => by
    obtain ⟨hnodup, hv, hms⟩ := hv
    simp only [text, List.length_cons, List.length_append] at hfuel
    obtain ⟨fuel, rfl⟩ : ∃ f, fuel = f + 1 := ⟨fuel - 1, by omega⟩
    have hfirst := scanOnce_text lone indent v (level + 1) fuel _ hv (by omega)
      (ends_membersText indent (level + 1) level ms s)
    have hrest := scanMembers_text lone indent ms (level + 1) level fuel [] k v s hnodup hv hms
      (by omega) hfirst
    simp only [text, List.cons_append, List.append_assoc, List.nil_append]
    rw [scanOnce, skipWhitespace_append _ fun _ => isWhitespace_of_mem_newline, stringText_append,
      skipWhitespace_cons _ (by decide)]
    rw [stringText_append] at hrest
    split
    · rename_i heq
      exact absurd (List.cons.inj heq).1 (by decide)
    · rw [hrest]
      rfl

/-- The scanner reads the items after a first one. -/
theorem scanItems_text (lone : Option Char) (indent : Option Nat) : ∀ (vs : List PyJson)
    (level out fuel : Nat) (v : PyJson) (t s : List Char), WritableItems vs →
      2 * (itemsText indent level vs).length ≤ fuel →
      scanOnce lone fuel t =
        some (v, itemsText indent level vs ++ (newline indent out ++ ']' :: s)) →
      scanItems lone (fuel + 1) t = some (v :: vs, s)
  | [], level, out, fuel, v, t, s, _, _, hfirst => by
    rw [scanItems, hfirst]
    simp only [itemsText, List.nil_append]
    rw [skipWhitespace_append _ fun _ => isWhitespace_of_mem_newline,
      skipWhitespace_cons _ (by decide)]
    rfl
  | w :: vs, level, out, fuel, v, t, s, hvs, hfuel, hfirst => by
    obtain ⟨gap, hsep, hgap⟩ := separator_eq indent level
    simp only [itemsText, hsep, List.length_cons, List.length_append] at hfuel
    obtain ⟨fuel, rfl⟩ : ∃ f, fuel = f + 1 := ⟨fuel - 1, by omega⟩
    have hnext := scanOnce_text lone indent w level fuel _ hvs.1 (by omega)
      (ends_itemsText indent level out vs s)
    have hrest := scanItems_text lone indent vs level out fuel w _ s hvs.2 (by omega) hnext
    rw [scanItems, hfirst]
    simp only [itemsText, hsep, List.cons_append, List.append_assoc]
    rw [skipWhitespace_cons _ (by decide)]
    simp only []
    rw [skipWhitespace_append _ hgap, skipWhitespace_text indent level _ hvs.1, hrest]
    rfl

/-- The scanner reads the members after a first one. -/
theorem scanMembers_text (lone : Option Char) (indent : Option Nat) :
    ∀ (ms : List (List Char × PyJson)) (level out fuel : Nat) (members : List (List Char × PyJson))
      (k : List Char) (v : PyJson) (s : List Char),
      ((members ++ (k, v) :: ms).map (·.1)).Nodup → Writable v → WritableMembers ms →
      2 * (membersText indent level ms).length ≤ fuel →
      scanOnce lone fuel (text indent level v ++
          (membersText indent level ms ++ (newline indent out ++ '}' :: s))) =
        some (v, membersText indent level ms ++ (newline indent out ++ '}' :: s)) →
      scanMembers lone (fuel + 1) members (stringText k ++ (':' :: ' ' :: (text indent level v ++
          (membersText indent level ms ++ (newline indent out ++ '}' :: s))))) =
        some (members ++ (k, v) :: ms, s)
  | [], level, out, fuel, members, k, v, s, hnodup, hv, _, _, hfirst => by
    rw [List.map_append, List.map_cons] at hnodup
    have hmem : k ∉ members.map (·.1) := fun h =>
      (List.nodup_append.mp hnodup).2.2 k h k (List.mem_cons_self ..) rfl
    rw [stringText_append, scanMembers, scanString_flatMap]
    simp only []
    rw [skipWhitespace_cons _ (by decide)]
    simp only []
    rw [skipWhitespace_space, skipWhitespace_text indent level _ hv, hfirst]
    simp only [membersText, List.nil_append]
    rw [skipWhitespace_append _ fun _ => isWhitespace_of_mem_newline,
      skipWhitespace_cons _ (by decide), setMember_of_not_mem v hmem]
    rfl
  | (k', w) :: ms, level, out, fuel, members, k, v, s, hnodup, hv, hms, hfuel, hfirst => by
    obtain ⟨gap, hsep, hgap⟩ := separator_eq indent level
    simp only [membersText, hsep, List.length_cons, List.length_append] at hfuel
    obtain ⟨fuel, rfl⟩ : ∃ f, fuel = f + 1 := ⟨fuel - 1, by omega⟩
    have hnext := scanOnce_text lone indent w level fuel _ hms.1 (by omega)
      (ends_membersText indent level out ms s)
    have hassoc : (members ++ [(k, v)]) ++ (k', w) :: ms = members ++ (k, v) :: (k', w) :: ms :=
      List.append_cons .. |>.symm
    have hrest := scanMembers_text lone indent ms level out fuel (members ++ [(k, v)]) k' w s
      (hassoc ▸ hnodup) hms.1 hms.2 (by omega) hnext
    rw [List.map_append, List.map_cons] at hnodup
    have hmem : k ∉ members.map (·.1) := fun h =>
      (List.nodup_append.mp hnodup).2.2 k h k (List.mem_cons_self ..) rfl
    rw [stringText_append, scanMembers, scanString_flatMap]
    simp only []
    rw [skipWhitespace_cons _ (by decide)]
    simp only []
    rw [skipWhitespace_space, skipWhitespace_text indent level _ hv, hfirst]
    simp only [membersText, hsep, List.cons_append, List.append_assoc]
    rw [skipWhitespace_cons _ (by decide)]
    simp only []
    rw [skipWhitespace_append _ hgap, stringText_append, skipWhitespace_cons _ (by decide),
      ← stringText_append, setMember_of_not_mem v hmem, hrest, hassoc]

end

/-! ## Characters -/

/-- The characters `json.dumps` writes: printable ASCII and line breaks. -/
def Plain (c : Char) : Prop := c = '\n' ∨ ' ' ≤ c ∧ c ≤ '~'

theorem plain_of_all {s : List Char} (h : s.all (fun c => ' ' ≤ c && c ≤ '~') = true) :
    ∀ c ∈ s, Plain c := by
  intro c hc
  have hc := List.all_eq_true.mp h c hc
  simp only [Bool.and_eq_true, decide_eq_true_eq] at hc
  exact .inr hc

theorem plain_of_isDigit {c : Char} (h : isDigit c = true) : Plain c := by
  have h := (isDigit_iff c).mp h
  have hlow : 32 ≤ c.toNat := by omega
  have hhigh : c.toNat ≤ 126 := by omega
  exact .inr ⟨hlow, hhigh⟩

theorem plain_of_mem_natText {n : Nat} {c : Char} (h : c ∈ natText n) : Plain c :=
  plain_of_isDigit (isDigit_of_mem_natText h)

theorem printable_of_mem_hexText {width n : Nat} {c : Char} (h : c ∈ hexText width n) :
    ' ' ≤ c ∧ c ≤ '~' := by
  have hdigit : ∀ d : Fin 16, ' ' ≤ "0123456789abcdef".toList.getD d.val '0' ∧
      "0123456789abcdef".toList.getD d.val '0' ≤ '~' := by decide
  induction width generalizing n with
  | zero => exact absurd h (List.not_mem_nil)
  | succ width ih =>
    rcases List.mem_append.mp h with h | h
    · exact ih h
    · rw [List.mem_singleton.mp h]
      exact hdigit ⟨n % 16, Nat.mod_lt _ (by omega)⟩

theorem plain_of_mem_escapeChar {c d : Char} (h : d ∈ escapeChar c) : Plain d := by
  have hunit : ∀ n, d ∈ unitText n → Plain d := by
    intro n h
    rcases List.mem_cons.mp h with rfl | h
    · exact .inr (by decide)
    · rcases List.mem_cons.mp h with rfl | h
      · exact .inr (by decide)
      · exact .inr (printable_of_mem_hexText h)
  have hpair : ∀ e : Char, Plain e → d ∈ ['\\', e] → Plain d := by
    intro e he h
    rcases List.mem_cons.mp h with rfl | h
    · exact .inr (by decide)
    · exact List.mem_singleton.mp h ▸ he
  unfold escapeChar at h
  split_ifs at h with hquote hslash hn hr ht hf hb hplain hlt
  · exact hpair _ (.inr (by decide)) h
  · exact hpair _ (.inr (by decide)) h
  · exact hpair _ (.inr (by decide)) h
  · exact hpair _ (.inr (by decide)) h
  · exact hpair _ (.inr (by decide)) h
  · exact hpair _ (.inr (by decide)) h
  · exact hpair _ (.inr (by decide)) h
  · exact .inr (List.mem_singleton.mp h ▸ hplain)
  · exact hunit _ h
  · exact (List.mem_append.mp h).elim (hunit _) (hunit _)

theorem plain_of_mem_stringText {s : List Char} {d : Char} (h : d ∈ stringText s) : Plain d := by
  have hquote : Plain '"' := .inr (by decide)
  rcases List.mem_append.mp h with h | h
  · rcases List.mem_cons.mp h with rfl | h
    · exact hquote
    · obtain ⟨c, -, hc⟩ := List.mem_flatMap.mp h
      exact plain_of_mem_escapeChar hc
  · exact List.mem_singleton.mp h ▸ hquote

theorem plain_of_mem_newline {indent : Option Nat} {level : Nat} {d : Char}
    (h : d ∈ newline indent level) : Plain d := by
  cases indent with
  | none => exact absurd h (List.not_mem_nil)
  | some n =>
    rcases List.mem_cons.mp h with rfl | h
    · exact .inl rfl
    · rw [(List.mem_replicate.mp h).2]
      exact .inr (by decide)

theorem plain_of_mem_separator {indent : Option Nat} {level : Nat} {d : Char}
    (h : d ∈ separator indent level) : Plain d := by
  cases indent with
  | none =>
    have hall : [',', ' '].all (fun c => ' ' ≤ c && c ≤ '~') = true := by decide
    exact plain_of_all hall d h
  | some n =>
    rcases List.mem_cons.mp h with rfl | h
    · exact .inr (by decide)
    · exact plain_of_mem_newline h

theorem plain_of_mem_float {literal : List Char} (h : FloatRepr literal) {d : Char} (hd : d ∈ literal) :
    Plain d := by
  obtain ⟨sign, whole, fraction, exponent, rfl, hsign, hwhole, hfraction, hexponent, -⟩ := h
  have hdigits : ∀ {ds : List Char}, (∀ c ∈ ds, isDigit c = true) → ∀ c ∈ ds, Plain c :=
    fun hds c hc => plain_of_isDigit (hds c hc)
  rcases List.mem_append.mp hd with hd | hd
  · rcases hsign with rfl | rfl
    · exact absurd hd List.not_mem_nil
    · exact plain_of_all rfl d hd
  · rcases List.mem_append.mp hd with hd | hd
    · rcases hwhole with rfl | ⟨-, -, hds⟩
      · exact plain_of_all rfl d hd
      · exact hdigits hds d hd
    · rcases List.mem_append.mp hd with hd | hd
      · rcases hfraction with rfl | ⟨ds, rfl, -, hds⟩
        · exact absurd hd List.not_mem_nil
        · rcases List.mem_cons.mp hd with rfl | hd
          · exact .inr (by decide)
          · exact hdigits hds d hd
      · rcases hexponent with rfl | ⟨mark, ds, rfl, hmark, -, hds⟩
        · exact absurd hd List.not_mem_nil
        · rcases List.mem_cons.mp hd with rfl | hd
          · exact .inr (by decide)
          · rcases List.mem_cons.mp hd with rfl | hd
            · rcases hmark with rfl | rfl
              · exact .inr (by decide)
              · exact .inr (by decide)
            · exact hdigits hds d hd

mutual

theorem plain_text (indent : Option Nat) : ∀ (v : PyJson) (level : Nat), Writable v →
    ∀ d ∈ text indent level v, Plain d
  | .null, _, _ => plain_of_all rfl
  | .bool true, _, _ => plain_of_all rfl
  | .bool false, _, _ => plain_of_all rfl
  | .int (.ofNat n), _, _ => fun _ => plain_of_mem_natText
  | .int (.negSucc n), _, _ => List.forall_mem_cons.mpr ⟨.inr (by decide), fun _ => plain_of_mem_natText⟩
  | .float literal, _, h => fun _ => plain_of_mem_float h
  | .str s, _, _ => fun _ => plain_of_mem_stringText
  | .list [], _, _ => plain_of_all rfl
  | .list (v :: vs), level, hv => by
    have hfirst := plain_text indent v (level + 1) hv.1
    have hrest := plain_itemsText indent vs (level + 1) hv.2
    simp only [text, List.forall_mem_cons, List.forall_mem_append]
    exact ⟨.inr (by decide), fun _ => plain_of_mem_newline, hfirst, hrest,
      fun _ => plain_of_mem_newline, .inr (by decide), List.forall_mem_nil _⟩
  | .dict [], _, _ => plain_of_all rfl
  | .dict ((k, v) :: ms), level, hv => by
    have hfirst := plain_text indent v (level + 1) hv.2.1
    have hrest := plain_membersText indent ms (level + 1) hv.2.2
    simp only [text, List.forall_mem_cons, List.forall_mem_append]
    exact ⟨.inr (by decide), fun _ => plain_of_mem_newline, fun _ => plain_of_mem_stringText,
      .inr (by decide), .inr (by decide), hfirst, hrest, fun _ => plain_of_mem_newline,
      .inr (by decide), List.forall_mem_nil _⟩

theorem plain_itemsText (indent : Option Nat) : ∀ (vs : List PyJson) (level : Nat), WritableItems vs →
    ∀ d ∈ itemsText indent level vs, Plain d
  | [], _, _ => List.forall_mem_nil _
  | v :: vs, level, hv => by
    simp only [itemsText, List.forall_mem_append]
    exact ⟨fun _ => plain_of_mem_separator, plain_text indent v level hv.1,
      plain_itemsText indent vs level hv.2⟩

theorem plain_membersText (indent : Option Nat) : ∀ (ms : List (List Char × PyJson)) (level : Nat),
    WritableMembers ms → ∀ d ∈ membersText indent level ms, Plain d
  | [], _, _ => List.forall_mem_nil _
  | (k, v) :: ms, level, hv => by
    simp only [membersText, List.forall_mem_append, List.forall_mem_cons]
    exact ⟨fun _ => plain_of_mem_separator, fun _ => plain_of_mem_stringText, .inr (by decide),
      .inr (by decide), plain_text indent v level hv.1, plain_membersText indent ms level hv.2⟩

end

/-! ## The round trip -/

/-- `json.loads` reads what `json.dumps` writes. -/
theorem loadsWith_text (lone : Option Char) (indent : Option Nat) {v : PyJson} (h : Writable v) :
    loadsWith lone (text indent 0 v) = some v := by
  have hbom : (text indent 0 v).head? ≠ some '\uFEFF' := by
    intro heq
    have hmem := List.mem_of_mem_head? (Option.mem_def.mpr heq)
    rcases plain_text indent v 0 h _ hmem with heq | hplain
    · exact absurd heq (by decide)
    · exact absurd hplain (by decide)
  have hscan := scanOnce_text lone indent v 0 (2 * (text indent 0 v).length + 1) [] h (by omega)
    ends_nil
  have hskip := skipWhitespace_text indent 0 [] h
  rw [List.append_nil] at hscan hskip
  rw [loadsWith, if_neg hbom, hskip, hscan]
  rfl

/-! ## Keys in order -/

theorem map_fst_sortedMembers (ms : List (List Char × PyJson)) :
    (sortedMembers ms).map (·.1) = ms.map (·.1) := by
  induction ms with
  | nil => rfl
  | cons m ms ih => rw [sortedMembers, List.map_cons, List.map_cons, ih]

theorem writableMembers_iff (ms : List (List Char × PyJson)) :
    WritableMembers ms ↔ ∀ m ∈ ms, Writable m.2 := by
  induction ms with
  | nil => exact ⟨fun _ => List.forall_mem_nil _, fun _ => trivial⟩
  | cons m ms ih => rw [WritableMembers, List.forall_mem_cons, ih]

mutual

theorem writable_sorted : ∀ v : PyJson, Writable v → Writable (sorted v)
  | .null, h | .bool _, h | .int _, h | .float _, h | .str _, h => h
  | .list items, h => writableItems_sorted items h
  | .dict members, h => by
    have hms := writableMembers_sorted members h.2
    have hperm := List.mergeSort_perm (sortedMembers members) fun m n => textLe m.1 n.1
    refine ⟨?_, ?_⟩
    · rw [(hperm.map (·.1)).nodup_iff, map_fst_sortedMembers]
      exact h.1
    · rw [writableMembers_iff] at hms ⊢
      exact fun m hm => hms m (hperm.mem_iff.mp hm)

theorem writableItems_sorted : ∀ vs : List PyJson, WritableItems vs → WritableItems (sortedItems vs)
  | [], _ => trivial
  | v :: vs, h => ⟨writable_sorted v h.1, writableItems_sorted vs h.2⟩

theorem writableMembers_sorted : ∀ ms : List (List Char × PyJson), WritableMembers ms →
    WritableMembers (sortedMembers ms)
  | [], _ => trivial
  | (_, v) :: ms, h => ⟨writable_sorted v h.1, writableMembers_sorted ms h.2⟩

end

/-! ## No text is its own document -/

theorem flush_none {high : Option Nat} {text : Option (List Char × List Char)} {r : List Char × List Char}
    (h : flush none high text = some r) : text = some r := by
  cases high with
  | none => exact h
  | some _ => cases h

theorem prepend_some {c : Char} {text : Option (List Char × List Char)} {t rest : List Char}
    (h : prepend c text = some (t, rest)) : ∃ t', t = c :: t' ∧ text = some (t', rest) := by
  cases text with
  | none => cases h
  | some r =>
    obtain ⟨rfl, rfl⟩ := Prod.mk.inj (Option.some.inj h)
    exact ⟨r.1, rfl, rfl⟩

theorem scanString_length {high : Option Nat} {s t rest : List Char}
    (h : scanString none high s = some (t, rest)) : t.length + rest.length < s.length := by
  fun_induction scanString none high s generalizing t rest with
  | case1 => cases h
  | case2 high s =>
    obtain ⟨rfl, rfl⟩ := Prod.mk.inj (Option.some.inj (flush_none h))
    simp
  | case3 => cases h
  | case4 high a b c d s unit hunit hhigh ih =>
    have := ih (flush_none h)
    simp only [List.length_cons]
    omega
  | case5 a b c d s unit hunit hhigh hlow high ih =>
    obtain ⟨t', rfl, htext⟩ := prepend_some h
    have := ih htext
    simp only [List.length_cons]
    omega
  | case6 => cases h
  | case7 high a b c d s unit hunit hhigh hlow ih =>
    obtain ⟨t', rfl, htext⟩ := prepend_some (flush_none h)
    have := ih htext
    simp only [List.length_cons]
    omega
  | case8 => cases h
  | case9 high c s hc d hd ih =>
    obtain ⟨t', rfl, htext⟩ := prepend_some (flush_none h)
    have := ih htext
    simp only [List.length_cons]
    omega
  | case10 => cases h
  | case11 high c s hquote hunit hescape hc ih =>
    obtain ⟨t', rfl, htext⟩ := prepend_some (flush_none h)
    have := ih htext
    simp only [List.length_cons]
    omega

theorem skipWhitespace_length (s : List Char) : (skipWhitespace s).length ≤ s.length :=
  (List.dropWhile_suffix _).length_le

theorem scanNumber_ne_str {s t rest : List Char} : scanNumber s ≠ some (.str t, rest) := by
  intro h
  unfold scanNumber at h
  dsimp only at h
  split at h
  · cases h
  · split_ifs at h
    · obtain ⟨n, _, heq⟩ := Option.map_eq_some_iff.mp h
      cases heq
    · cases h

theorem scanScalar_ne_str {s t rest : List Char} : scanScalar s ≠ some (.str t, rest) := by
  intro h
  unfold scanScalar at h
  split at h
  all_goals first
    | cases h
    | exact scanNumber_ne_str h

/-- Where the scanner returns a string, it stood at its opening quote. -/
theorem scanOnce_str {fuel : Nat} {s t rest : List Char}
    (h : scanOnce none fuel s = some (.str t, rest)) : t.length + rest.length < s.length := by
  cases fuel with
  | zero => cases h
  | succ fuel =>
    unfold scanOnce at h
    split at h
    · cases h
    · rename_i s'
      cases hscan : scanString none none s' with
      | none => rw [hscan] at h; cases h
      | some r =>
        obtain ⟨t', rest'⟩ := r
        rw [hscan] at h
        obtain ⟨heq, rfl⟩ := Prod.mk.inj (Option.some.inj h)
        obtain rfl := PyJson.str.inj heq
        have := scanString_length hscan
        simp only [List.length_cons]
        omega
    · split at h
      · cases h
      · cases hscan : scanMembers none fuel [] _ <;> rw [hscan] at h <;> cases h
    · split at h
      · cases h
      · cases hscan : scanItems none fuel _ <;> rw [hscan] at h <;> cases h
    · exact absurd h scanScalar_ne_str

/-- A text is longer than the string it is the document of. -/
theorem loads_str_length {s t : List Char} (h : loads s = some (.str t)) : t.length < s.length := by
  unfold loads loadsWith at h
  split_ifs at h
  split at h
  · cases h
  · rename_i value rest hscan
    split_ifs at h
    obtain rfl := Option.some.inj h
    have := scanOnce_str hscan
    have := skipWhitespace_length s
    omega

end Json

end Python
