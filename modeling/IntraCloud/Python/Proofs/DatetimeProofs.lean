import IntraCloud.Python.Datetime
import IntraCloud.Python.Proofs.NumbersProofs
import Mathlib.Tactic.IntervalCases
import Mathlib.Tactic.SplitIfs

/-!
# `strptime` reads what `str` writes

Each directive first tries the digits that are written, so the first match of a format is the date itself.
-/

namespace Python

theorem digit_digitChar {n : Nat} (h : n < 10) (s : List Char) : digit (Nat.digitChar n :: s) = [(n, s)] := by
  have hdigit : isDigit (Nat.digitChar n) = true := by
    rw [isDigit_iff, Nat.toNat_digitChar_of_lt_ten h]
    omega
  show (decimalDigit? (Nat.digitChar n)).toList.map (fun d => (d, s)) = [(n, s)]
  rw [decimalDigit?_of_isDigit hdigit, Nat.toNat_digitChar_of_lt_ten h, Nat.add_sub_cancel_left]
  rfl

theorem both_of_singleton {first second : List Char → List (Nat × List Char)} {s t u : List Char} {a b : Nat}
    (hfirst : first s = [(a, t)]) (hsecond : second t = [(b, u)]) : both first second s = [(10 * a + b, u)] := by
  unfold both
  rw [hfirst, List.flatMap_singleton]
  dsimp only
  rw [hsecond]
  rfl

/-- The year is its four digits. -/
theorem matches_year {year : Nat} (h : year ≤ 9999) (s : List Char) :
    Directive.year.matches (padded 4 year ++ s) = [(year, s)] := by
  have hthousands := digit_digitChar (Nat.mod_lt (year / 1000) (by omega : 10 > 0))
    (Nat.digitChar (year / 100 % 10) :: Nat.digitChar (year / 10 % 10) :: Nat.digitChar (year % 10) :: s)
  have hhundreds := digit_digitChar (Nat.mod_lt (year / 100) (by omega : 10 > 0))
    (Nat.digitChar (year / 10 % 10) :: Nat.digitChar (year % 10) :: s)
  have htens := digit_digitChar (Nat.mod_lt (year / 10) (by omega : 10 > 0)) (Nat.digitChar (year % 10) :: s)
  have hones := digit_digitChar (Nat.mod_lt year (by omega : 10 > 0)) s
  have hmatch := both_of_singleton (both_of_singleton (both_of_singleton hthousands hhundreds) htens) hones
  have hvalue : 10 * (10 * (10 * (year / 1000 % 10) + year / 100 % 10) + year / 10 % 10) + year % 10 = year := by
    omega
  rw [hvalue] at hmatch
  have htext : padded 4 year ++ s = Nat.digitChar (year / 1000 % 10) :: Nat.digitChar (year / 100 % 10) ::
      Nat.digitChar (year / 10 % 10) :: Nat.digitChar (year % 10) :: s := by
    simp [padded, Nat.div_div_eq_div_mul]
  rw [htext]
  exact hmatch

theorem matches_month {month : Nat} (h : 1 ≤ month ∧ month ≤ 12) (s : List Char) :
    ∃ more, Directive.month.matches (padded 2 month ++ s) = (month, s) :: more := by
  obtain ⟨hfrom, hto⟩ := h
  interval_cases month <;> exact ⟨_, rfl⟩

theorem matches_day {day : Nat} (h : 1 ≤ day ∧ day ≤ 31) (s : List Char) :
    ∃ more, Directive.day.matches (padded 2 day ++ s) = (day, s) :: more := by
  obtain ⟨hfrom, hto⟩ := h
  interval_cases day <;> exact ⟨_, rfl⟩

theorem matches_hour {hour : Nat} (h : hour < 24) (s : List Char) :
    ∃ more, Directive.hour.matches (padded 2 hour ++ s) = (hour, s) :: more := by
  interval_cases hour <;> exact ⟨_, rfl⟩

theorem matches_minute {minute : Nat} (h : minute < 60) (s : List Char) :
    ∃ more, Directive.minute.matches (padded 2 minute ++ s) = (minute, s) :: more := by
  interval_cases minute <;> exact ⟨_, rfl⟩

theorem matches_second {second : Nat} (h : second < 60) (s : List Char) :
    ∃ more, Directive.second.matches (padded 2 second ++ s) = (second, s) :: more := by
  interval_cases second <;> exact ⟨_, rfl⟩

/-- The first match of a directive is the one of the format, where the rest matches. -/
theorem matchFormat_cons {d : Directive} {ds : List Directive} {s t u : List Char} {n : Nat}
    {values : List (Directive × Nat)} (hmatches : ∃ more, d.matches s = (n, t) :: more)
    (hrest : matchFormat ds t = some (values, u)) : matchFormat (d :: ds) s = some ((d, n) :: values, u) := by
  obtain ⟨more, hmore⟩ := hmatches
  rw [matchFormat, hmore, List.findSome?_cons]
  dsimp only
  rw [hrest]
  rfl

theorem matches_literal (c : Char) (s : List Char) : ∃ more, (Directive.literal c).matches (c :: s) = (0, s) :: more :=
  ⟨[], if_pos rfl⟩

theorem day_le {year month day : Nat} (h : day ≤ daysInMonth year month) : day ≤ 31 := by
  unfold daysInMonth at h
  split_ifs at h <;> omega

/-- The date directives on the text of a date, whatever follows. -/
theorem matchFormat_date (d : Date) {ds : List Directive} {s u : List Char} {values : List (Directive × Nat)}
    (hrest : matchFormat ds s = some (values, u)) :
    matchFormat ([.year, .literal '-', .month, .literal '-', .day] ++ ds) (d.text ++ s) =
      some ((.year, d.year) :: (.literal '-', 0) :: (.month, d.month) :: (.literal '-', 0) :: (.day, d.day) :: values,
        u) := by
  obtain ⟨hyear, hmonth, hfrom, hto⟩ := d.valid
  have htext : d.text ++ s =
      padded 4 d.year ++ ('-' :: (padded 2 d.month ++ ('-' :: (padded 2 d.day ++ s)))) := by
    simp [Date.text]
  rw [htext]
  apply matchFormat_cons ⟨[], matches_year hyear.2 _⟩
  apply matchFormat_cons (matches_literal '-' _)
  apply matchFormat_cons (matches_month hmonth _)
  apply matchFormat_cons (matches_literal '-' _)
  exact matchFormat_cons (matches_day ⟨hfrom, day_le hto⟩ s) hrest

theorem Date.of?_self (d : Date) : Date.of? d.year d.month d.day = some d := dif_pos d.valid

/-- What the directives found makes a date and a time. -/
theorem strptime_eq {format : List Directive} {s : List Char} {values : List (Directive × Nat)} {date : Date}
    {time : TimeOfDay} (hmatch : matchFormat format s = some (values, []))
    (hdate : Date.of? ((values.lookup .year).getD 1900) ((values.lookup .month).getD 1)
      ((values.lookup .day).getD 1) = some date)
    (htime : TimeOfDay.of? ((values.lookup .hour).getD 0) ((values.lookup .minute).getD 0)
      ((values.lookup .second).getD 0) = some time) : strptime format s = some ⟨date, time⟩ := by
  unfold strptime
  rw [hmatch]
  dsimp only
  rw [hdate, htime]

/-- Midnight. -/
def TimeOfDay.midnight : TimeOfDay := ⟨0, 0, 0, 0, by decide⟩

/-- A date is read back. -/
theorem strptime_date (d : Date) :
    strptime [.year, .literal '-', .month, .literal '-', .day] d.text = some ⟨d, .midnight⟩ := by
  have hmatch : matchFormat [.year, .literal '-', .month, .literal '-', .day] d.text =
      some ([(.year, d.year), (.literal '-', 0), (.month, d.month), (.literal '-', 0), (.day, d.day)], []) := by
    have hnothing : matchFormat [] [] = some ([], []) := rfl
    have hdate := matchFormat_date d hnothing
    rw [List.append_nil, List.append_nil] at hdate
    exact hdate
  exact strptime_eq hmatch d.of?_self rfl

/-- A date and a time of whole seconds are read back. -/
theorem strptime_datetime (d : Date) {hour minute second : Nat} (hhour : hour < 24) (hminute : minute < 60)
    (hsecond : second < 60) :
    strptime ([.year, .literal '-', .month, .literal '-', .day] ++
        [.literal 'T', .hour, .literal ':', .minute, .literal ':', .second])
      (d.text ++ 'T' :: (padded 2 hour ++ ':' :: (padded 2 minute ++ ':' :: padded 2 second))) =
        some ⟨d, ⟨hour, minute, second, 0, hhour, hminute, hsecond, by omega⟩⟩ := by
  have htime : matchFormat [.literal 'T', .hour, .literal ':', .minute, .literal ':', .second]
      ('T' :: (padded 2 hour ++ ':' :: (padded 2 minute ++ ':' :: padded 2 second))) =
        some ([(.literal 'T', 0), (.hour, hour), (.literal ':', 0), (.minute, minute), (.literal ':', 0),
          (.second, second)], []) := by
    apply matchFormat_cons (matches_literal 'T' _)
    apply matchFormat_cons (matches_hour hhour _)
    apply matchFormat_cons (matches_literal ':' _)
    apply matchFormat_cons (matches_minute hminute _)
    apply matchFormat_cons (matches_literal ':' _)
    have hend := matches_second hsecond []
    rw [List.append_nil] at hend
    exact matchFormat_cons hend rfl
  have hof : TimeOfDay.of? hour minute second = some ⟨hour, minute, second, 0, hhour, hminute, hsecond, by omega⟩ :=
    dif_pos ⟨hhour, hminute, hsecond, by omega⟩
  exact strptime_eq (matchFormat_date d htime) d.of?_self hof

/-! ## What a format does not match -/

/-- What is left after a match has the plus sign that the text had. -/
def KeepsPlus (pattern : List Char → List (Nat × List Char)) : Prop :=
  ∀ s, '+' ∈ s → ∀ p ∈ pattern s, '+' ∈ p.2

theorem keepsPlus_digit : KeepsPlus digit := by
  intro s hs p hp
  cases s with
  | nil => cases hs
  | cons c s =>
    obtain ⟨d, hd, rfl⟩ := List.mem_map.mp hp
    rcases List.mem_cons.mp hs with rfl | hs
    · have hnone : decimalDigit? '+' = none := by decide
      rw [hnone] at hd
      cases hd
    · exact hs

theorem keepsPlus_between {low high : Char} (h : ¬ low ≤ '+') : KeepsPlus (between low high) := by
  intro s hs p hp
  cases s with
  | nil => cases hs
  | cons c s =>
    rw [between] at hp
    split_ifs at hp with hc
    · obtain rfl := List.mem_singleton.mp hp
      rcases List.mem_cons.mp hs with rfl | hs
      · exact absurd hc.1 h
      · exact hs
    · cases hp

theorem keepsPlus_both {first second : List Char → List (Nat × List Char)} (hfirst : KeepsPlus first)
    (hsecond : KeepsPlus second) : KeepsPlus (both first second) := by
  intro s hs p hp
  obtain ⟨a, ha, hp⟩ := List.mem_flatMap.mp hp
  obtain ⟨b, hb, rfl⟩ := List.mem_map.mp hp
  exact hsecond a.2 (hfirst s hs a ha) b hb

theorem keepsPlus_append {first second : List Char → List (Nat × List Char)} (hfirst : KeepsPlus first)
    (hsecond : KeepsPlus second) : KeepsPlus fun s => first s ++ second s := by
  intro s hs p hp
  rcases List.mem_append.mp hp with hp | hp
  · exact hfirst s hs p hp
  · exact hsecond s hs p hp

theorem keepsPlus_space : KeepsPlus fun s => Directive.space.matches s := by
  intro s hs p hp
  obtain ⟨n, hn, rfl⟩ := List.mem_map.mp hp
  rw [List.mem_reverse, List.mem_range] at hn
  have hparts : s.takeWhile isSpace ++ s.dropWhile isSpace = s := List.takeWhile_append_dropWhile
  have hrest : '+' ∈ s.dropWhile isSpace := by
    rw [← hparts] at hs
    refine (List.mem_append.mp hs).resolve_left fun htaken => ?_
    have hspace := List.all_eq_true.mp (List.all_takeWhile (p := isSpace) (l := s)) _ htaken
    exact absurd hspace (by decide)
  show '+' ∈ s.drop (n + 1)
  rw [← hparts, List.drop_append_of_le_length (by omega)]
  exact List.mem_append_right _ hrest

/-- A directive that is no plus sign takes none. -/
theorem keepsPlus_matches {d : Directive} (h : ∀ c, d = .literal c → c.toLower ≠ '+') :
    KeepsPlus fun s => d.matches s := by
  have hdigit := keepsPlus_digit
  have hzero : ∀ high, KeepsPlus (between '0' high) := fun _ => keepsPlus_between (by decide)
  have hone : ∀ high, KeepsPlus (between '1' high) := fun _ => keepsPlus_between (by decide)
  have htwo : KeepsPlus (between '2' '2') := keepsPlus_between (by decide)
  have hthree : KeepsPlus (between '3' '3') := keepsPlus_between (by decide)
  have hsix : KeepsPlus (between '6' '6') := keepsPlus_between (by decide)
  cases d with
  | year => exact keepsPlus_both (keepsPlus_both (keepsPlus_both hdigit hdigit) hdigit) hdigit
  | month =>
    exact keepsPlus_append (keepsPlus_append (keepsPlus_both (hone _) (hzero _)) (keepsPlus_both (hzero _) (hone _)))
      (hone _)
  | day =>
    refine keepsPlus_append (keepsPlus_append (keepsPlus_append (keepsPlus_append
      (keepsPlus_both hthree (hzero _)) (keepsPlus_both (hone _) hdigit)) (keepsPlus_both (hzero _) (hone _)))
      (hone _)) ?_
    intro s hs p hp
    dsimp only at hp
    split at hp
    · rcases List.mem_cons.mp hs with hblank | hs
      · cases hblank
      · exact hone _ _ hs p hp
    · cases hp
  | hour =>
    exact keepsPlus_append (keepsPlus_append (keepsPlus_both htwo (hzero _)) (keepsPlus_both (hzero _) hdigit)) hdigit
  | minute => exact keepsPlus_append (keepsPlus_both (hzero _) hdigit) hdigit
  | second =>
    exact keepsPlus_append (keepsPlus_append (keepsPlus_both hsix (hzero _)) (keepsPlus_both (hzero _) hdigit)) hdigit
  | space => exact keepsPlus_space
  | literal c =>
    intro s hs p hp
    cases s with
    | nil => cases hs
    | cons x s =>
      have hmatches : (Directive.literal c).matches (x :: s) = if x.toLower = c.toLower then [(0, s)] else [] := rfl
      dsimp only at hp
      rw [hmatches] at hp
      split_ifs at hp with hx
      · obtain rfl := List.mem_singleton.mp hp
        rcases List.mem_cons.mp hs with rfl | hs
        · exact absurd hx.symm (h c rfl)
        · exact hs
      · cases hp

theorem plus_of_matchFormat {format : List Directive} (hformat : ∀ c, .literal c ∈ format → c.toLower ≠ '+')
    {s rest : List Char} {values : List (Directive × Nat)} (hs : '+' ∈ s)
    (h : matchFormat format s = some (values, rest)) : '+' ∈ rest := by
  induction format generalizing s values with
  | nil =>
    obtain ⟨-, rfl⟩ := Prod.mk.inj (Option.some.inj h)
    exact hs
  | cons d format ih =>
    rw [matchFormat] at h
    obtain ⟨p, hp, hmatch⟩ := List.exists_of_findSome?_eq_some h
    obtain ⟨found, hfound, heq⟩ := Option.map_eq_some_iff.mp hmatch
    obtain ⟨-, rfl⟩ := Prod.mk.inj heq
    have hkeeps : KeepsPlus fun s => d.matches s :=
      keepsPlus_matches fun c hc => hformat c (hc ▸ List.mem_cons_self)
    exact ih (fun c hc => hformat c (List.mem_cons_of_mem _ hc)) (hkeeps s hs p hp) hfound

/-- A format without a plus sign reads no text with one. -/
theorem strptime_plus {format : List Directive} (hformat : ∀ c, .literal c ∈ format → c.toLower ≠ '+')
    {s : List Char} (hs : '+' ∈ s) : strptime format s = none := by
  unfold strptime
  split
  next values hmatch =>
    have hrest := plus_of_matchFormat hformat hs hmatch
    cases hrest
  next => rfl

end Python
