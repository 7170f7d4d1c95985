import IntraCloud.Python.JsonErrors
import IntraCloud.Python.Proofs.JsonProofs

/-!
# The exceptions of `json.loads`: proofs

What the scanner with exceptions returns is what the scanner without them returns, and its fuel lasts.
-/

namespace Python.Json

variable {lone : Option Char}

theorem scanScalarE_ok {s : List Char} {scanned : PyJson × List Char} (h : scanScalarE s = .ok scanned) :
    scanScalar s = some scanned := by
  unfold scanScalarE at h
  split at h
  · rename_i hscan
    rw [hscan, Except.ok.inj h]
  · split at h <;> cases h

theorem wellFormed_ok {α : Type} {scanned : Option α} {x : α} (h : wellFormed scanned = .ok x) :
    scanned = some x := by
  cases scanned with
  | none => cases h
  | some y => rw [Except.ok.inj h]

theorem map_ok {ε α β : Type} {f : α → β} {r : Except ε α} {y : β} (h : r.map f = .ok y) :
    ∃ x, r = .ok x ∧ f x = y := by
  cases r with
  | error e => cases h
  | ok x => exact ⟨x, rfl, Except.ok.inj h⟩

mutual

/-- A value comes of the text whatever the depth. -/
theorem scanOnceE_ok : ∀ {fuel depth : Nat} {s : List Char} {scanned : PyJson × List Char},
    scanOnceE lone depth fuel s = .ok scanned → scanOnce lone fuel s = some scanned
  | 0, _, _, _, h => by cases h
  | fuel + 1, depth, s, scanned, h => by
    unfold scanOnceE at h
    split at h
    · cases h
    · obtain ⟨r, hr, rfl⟩ := map_ok h
      simp only [scanOnce, wellFormed_ok hr, Option.map_some]
    · split_ifs at h
      split at h
      · rename_i hws
        obtain rfl := Except.ok.inj h
        simp only [scanOnce, hws]
      · rename_i hne
        obtain ⟨r, hr, rfl⟩ := map_ok h
        have hsome := scanMembersE_ok hr
        simp only [scanOnce, hsome]
        rfl
    · split_ifs at h
      split at h
      · rename_i hws
        obtain rfl := Except.ok.inj h
        simp only [scanOnce, hws]
      · rename_i hne
        obtain ⟨r, hr, rfl⟩ := map_ok h
        have hsome := scanItemsE_ok hr
        simp only [scanOnce, hsome]
        rfl
    · rename_i hnil hquote hbrace hbracket
      cases s with
      | nil => exact (hnil rfl).elim
      | cons c s =>
        rw [scanOnce_scalar lone fuel s (fun hc => hquote s (hc ▸ rfl)) (fun hc => hbrace s (hc ▸ rfl))
          (fun hc => hbracket s (hc ▸ rfl))]
        exact scanScalarE_ok h

theorem scanMembersE_ok : ∀ {fuel depth : Nat} {members : List (List Char × PyJson)} {s : List Char}
    {scanned : List (List Char × PyJson) × List Char},
    scanMembersE lone depth fuel members s = .ok scanned → scanMembers lone fuel members s = some scanned
  | 0, _, _, _, _, h => by cases h
  | fuel + 1, depth, members, s, scanned, h => by
    unfold scanMembersE at h
    split at h
    · split at h
      · cases h
      · rename_i key s' hkey
        split at h
        · rename_i s'' hcolon
          split at h
          · cases h
          · rename_i value rest hvalue
            split at h
            · rename_i hend
              simp only [scanMembers, hkey, hcolon, scanOnceE_ok hvalue, hend, Except.ok.inj h]
            · rename_i hcomma
              simp only [scanMembers, hkey, hcolon, scanOnceE_ok hvalue, hcomma]
              exact scanMembersE_ok h
            · cases h
        · cases h
    · cases h

theorem scanItemsE_ok : ∀ {fuel depth : Nat} {s : List Char} {scanned : List PyJson × List Char},
    scanItemsE lone depth fuel s = .ok scanned → scanItems lone fuel s = some scanned
  | 0, _, _, _, h => by cases h
  | fuel + 1, depth, s, scanned, h => by
    unfold scanItemsE at h
    split at h
    · cases h
    · rename_i value rest hvalue
      split at h
      · rename_i hend
        simp only [scanItems, scanOnceE_ok hvalue, hend, Except.ok.inj h]
      · rename_i hcomma
        obtain ⟨r, hr, rfl⟩ := map_ok h
        simp only [scanItems, scanOnceE_ok hvalue, hcomma, scanItemsE_ok hr]
        rfl
      · cases h

end

/-- A text that loads with exceptions loads without them. -/
theorem decodeE_ok {depth : Nat} {s : List Char} {value : PyJson} (h : decodeE lone depth s = .ok value) :
    loadsWith lone s = some value := by
  unfold decodeE at h
  split at h
  · cases h
  · rename_i v rest hscan
    split_ifs at h with hrest
    have hsome := scanOnceE_ok hscan
    have hmark : s.head? ≠ some '\uFEFF' := by
      intro hhead
      obtain ⟨t, rfl⟩ : ∃ t, s = '\uFEFF' :: t := by
        cases s with
        | nil => cases hhead
        | cons c t => exact ⟨t, by rw [Option.some.inj hhead]⟩
      have hskip : skipWhitespace ('\uFEFF' :: t) = '\uFEFF' :: t := skipWhitespace_cons t (by decide)
      rw [hskip] at hsome
      have hnone : scanOnce lone (2 * ('\uFEFF' :: t).length + 1) ('\uFEFF' :: t) = none := rfl
      rw [hnone] at hsome
      cases hsome
    rw [loadsWith, if_neg hmark, hsome]
    simp only [if_pos hrest, Except.ok.inj h]

theorem loadBytesE_ok {depth : Nat} {b : Bytes} {value : PyJson} (h : loadBytesE depth b = .ok value) :
    loadBytes b = some value := by
  unfold loadBytesE at h
  unfold loadBytes
  split at h
  · cases h
  · rename_i s hs
    cases hdecode : decodeE (some REPLACEMENT) depth s with
    | error e => rw [hdecode] at h; cases h
    | ok v =>
      rw [hdecode] at h
      obtain rfl := Except.ok.inj h
      rw [hs, Option.bind_some, decodeE_ok hdecode]


/-! ## The fuel -/

/-- The scanner had fuel enough, and what it leaves is shorter than the text. -/
def Progress {α : Type} (s : List Char) (r : Except ScanError (α × List Char)) : Prop :=
  r ≠ .error .outOfFuel ∧ ∀ scanned, r = .ok scanned → scanned.2.length < s.length

theorem Progress.error {α : Type} {s : List Char} {e : ScanError} (h : e ≠ .outOfFuel) :
    Progress s (.error e : Except ScanError (α × List Char)) :=
  ⟨fun he => h (Except.error.inj he), fun _ hr => by cases hr⟩

theorem Progress.ok {α : Type} {s rest : List Char} {x : α} (h : rest.length < s.length) :
    Progress s (.ok (x, rest) : Except ScanError (α × List Char)) := by
  refine ⟨nofun, fun scanned hr => ?_⟩
  rw [← Except.ok.inj hr]
  exact h

theorem Progress.map {α β : Type} {s t : List Char} {r : Except ScanError (α × List Char)} {f : α → β}
    (h : Progress s r) (hle : s.length ≤ t.length) :
    Progress t (r.map fun scanned => (f scanned.1, scanned.2)) := by
  cases r with
  | error e =>
    refine Progress.error ?_
    rintro rfl
    exact h.1 rfl
  | ok scanned =>
    have := h.2 scanned rfl
    exact Progress.ok (by omega)

theorem prependLone_some {text : Option (List Char × List Char)} {t rest : List Char}
    (h : prependLone lone text = some (t, rest)) : ∃ t', text = some (t', rest) := by
  cases lone with
  | none => cases h
  | some c =>
    obtain ⟨t', -, htext⟩ := prepend_some h
    exact ⟨t', htext⟩

theorem flush_some {high : Option Nat} {text : Option (List Char × List Char)} {t rest : List Char}
    (h : flush lone high text = some (t, rest)) : ∃ t', text = some (t', rest) := by
  cases high with
  | none => exact ⟨t, h⟩
  | some _ => exact prependLone_some h

theorem scanString_shorter {high : Option Nat} {s t rest : List Char}
    (h : scanString lone high s = some (t, rest)) : rest.length < s.length := by
  fun_induction scanString lone high s generalizing t rest with
  | case1 => cases h
  | case2 high s =>
    obtain ⟨t', htext⟩ := flush_some h
    obtain ⟨-, rfl⟩ := Prod.mk.inj (Option.some.inj htext)
    simp
  | case3 => cases h
  | case4 high a b c d s unit hunit hhigh ih =>
    obtain ⟨t', htext⟩ := flush_some h
    have := ih htext
    simp only [List.length_cons]
    omega
  | case5 a b c d s unit hunit hhigh hlow high ih =>
    obtain ⟨t', rfl, htext⟩ := prepend_some h
    have := ih htext
    simp only [List.length_cons]
    omega
  | case6 a b c d s unit hunit hhigh hlow ih =>
    obtain ⟨t', htext⟩ := prependLone_some h
    have := ih htext
    simp only [List.length_cons]
    omega
  | case7 high a b c d s unit hunit hhigh hlow ih =>
    obtain ⟨t', htext⟩ := flush_some h
    obtain ⟨t'', rfl, hscan⟩ := prepend_some htext
    have := ih hscan
    simp only [List.length_cons]
    omega
  | case8 => cases h
  | case9 high c s hc d hd ih =>
    obtain ⟨t', htext⟩ := flush_some h
    obtain ⟨t'', rfl, hscan⟩ := prepend_some htext
    have := ih hscan
    simp only [List.length_cons]
    omega
  | case10 => cases h
  | case11 high c s hquote hunit hescape hc ih =>
    obtain ⟨t', htext⟩ := flush_some h
    obtain ⟨t'', rfl, hscan⟩ := prepend_some htext
    have := ih hscan
    simp only [List.length_cons]
    omega

theorem takeInteger_shorter {s digits rest : List Char} (h : takeInteger s = some (digits, rest)) :
    rest.length < s.length := by
  unfold takeInteger at h
  split at h
  · cases h
  · rename_i c s
    split_ifs at h with hzero hdigit
    · obtain ⟨-, rfl⟩ := Prod.mk.inj (Option.some.inj h)
      simp
    · obtain ⟨-, rfl⟩ := Prod.mk.inj (Option.some.inj h)
      rw [List.dropWhile_cons_of_pos hdigit, List.length_cons]
      have := (List.dropWhile_suffix (l := s) isDigit).length_le
      omega

theorem takeDigits_le (s : List Char) : (takeDigits s).2.length ≤ s.length :=
  (List.dropWhile_suffix _).length_le

theorem takeFraction_le (s : List Char) : (takeFraction s).2.length ≤ s.length := by
  unfold takeFraction
  split
  · rename_i s'
    have := takeDigits_le s'
    split
    · exact Nat.le_refl _
    · rename_i digits rest hne heq
      rw [heq] at this
      dsimp only at this ⊢
      rw [List.length_cons]
      omega
  · exact Nat.le_refl _

theorem takeExponent_le (s : List Char) : (takeExponent s).2.length ≤ s.length := by
  unfold takeExponent
  split
  · rename_i e s'
    split
    · dsimp only
      split
      · exact Nat.le_refl _
      · rename_i digits rest hne heq
        have hrest : ∀ t : List Char, t.length ≤ s'.length → takeDigits t = (digits, rest) →
            rest.length ≤ (e :: s').length := by
          intro t hle ht
          have hdigits := takeDigits_le t
          rw [ht] at hdigits
          dsimp only at hdigits
          rw [List.length_cons]
          omega
        split at heq
        · exact hrest _ (Nat.le_succ _) heq
        · exact hrest _ (Nat.le_succ _) heq
        · exact hrest _ (Nat.le_refl _) heq
    · exact Nat.le_refl _
  · exact Nat.le_refl _

/-- A number takes what its integer part takes, at least. -/
theorem scanNumber_shorter {s rest : List Char} {value : PyJson} (h : scanNumber s = some (value, rest)) :
    rest.length < s.length := by
  unfold scanNumber at h
  dsimp only at h
  split at h
  · cases h
  · rename_i digits s' htake
    have hinteger := takeInteger_shorter htake
    have hfraction := takeFraction_le s'
    have hexponent := takeExponent_le (takeFraction s').2
    have hrest : rest.length ≤ s'.length := by
      split_ifs at h
      · obtain ⟨n, -, heq⟩ := Option.map_eq_some_iff.mp h
        obtain ⟨-, rfl⟩ := Prod.mk.inj heq
        exact Nat.le_refl _
      · rw [← (Prod.mk.inj (Option.some.inj h)).2]
        omega
    split at hinteger
    · dsimp only at hinteger
      rw [List.length_cons]
      omega
    · dsimp only at hinteger
      omega

theorem scanScalar_shorter {s rest : List Char} {value : PyJson} (h : scanScalar s = some (value, rest)) :
    rest.length < s.length := by
  unfold scanScalar at h
  split at h
  case h_7 => exact scanNumber_shorter h
  all_goals
    rw [← (Prod.mk.inj (Option.some.inj h)).2]
    simp only [List.length_cons]
    omega

theorem scanScalarE_progress (s : List Char) : Progress s (scanScalarE s) := by
  unfold scanScalarE
  split
  · rename_i scanned hscan
    exact Progress.ok (scanScalar_shorter hscan)
  · split
    · exact Progress.error (by decide)
    · exact Progress.error (by decide)

mutual

theorem scanOnceE_progress : ∀ {fuel : Nat} (depth : Nat) {s : List Char}, 2 * s.length < fuel →
    Progress s (scanOnceE lone depth fuel s)
  | 0, _, _, h => absurd h (Nat.not_lt_zero _)
  | fuel + 1, depth, s, h => by
    unfold scanOnceE
    split
    · exact Progress.error (by decide)
    · rename_i s
      cases hscan : scanString lone none s with
      | none => exact Progress.error (by decide)
      | some scanned =>
        have := scanString_shorter hscan
        refine Progress.ok ?_
        rw [List.length_cons]
        omega
    · rename_i s
      rw [List.length_cons] at h
      have hskip := skipWhitespace_length s
      split_ifs
      · exact Progress.error (by decide)
      · split
        · rename_i rest hws
          rw [hws] at hskip
          simp only [List.length_cons] at hskip
          refine Progress.ok ?_
          rw [List.length_cons]
          omega
        · refine Progress.map (scanMembersE_progress _ _ (by omega)) ?_
          rw [List.length_cons]
          omega
    · rename_i s
      rw [List.length_cons] at h
      have hskip := skipWhitespace_length s
      split_ifs
      · exact Progress.error (by decide)
      · split
        · rename_i rest hws
          rw [hws] at hskip
          simp only [List.length_cons] at hskip
          refine Progress.ok ?_
          rw [List.length_cons]
          omega
        · refine Progress.map (scanItemsE_progress _ (by omega)) ?_
          rw [List.length_cons]
          omega
    · exact scanScalarE_progress s

theorem scanMembersE_progress : ∀ {fuel : Nat} (depth : Nat) (members : List (List Char × PyJson))
    {s : List Char}, 2 * s.length < fuel → Progress s (scanMembersE lone depth fuel members s)
  | 0, _, _, _, h => absurd h (Nat.not_lt_zero _)
  | fuel + 1, depth, members, s, h => by
    unfold scanMembersE
    split
    · rename_i s
      rw [List.length_cons] at h
      split
      · exact Progress.error (by decide)
      · rename_i key s' hkey
        have hkeyLess := scanString_shorter hkey
        have hskip := skipWhitespace_length s'
        split
        · rename_i s'' hcolon
          rw [hcolon, List.length_cons] at hskip
          have hskip' := skipWhitespace_length s''
          have hvalue : Progress (skipWhitespace s'') (scanOnceE lone depth fuel (skipWhitespace s'')) :=
            scanOnceE_progress depth (by omega)
          split
          · rename_i e he
            refine Progress.error ?_
            rintro rfl
            exact hvalue.1 he
          · rename_i value rest hok
            have hless := hvalue.2 _ hok
            have hskipRest := skipWhitespace_length rest
            dsimp only at hless
            split
            · rename_i rest' hend
              rw [hend, List.length_cons] at hskipRest
              refine Progress.ok ?_
              rw [List.length_cons]
              omega
            · rename_i rest' hcomma
              rw [hcomma, List.length_cons] at hskipRest
              have hskipNext := skipWhitespace_length rest'
              have hrest : Progress (skipWhitespace rest')
                  (scanMembersE lone depth fuel (setMember key value members) (skipWhitespace rest')) :=
                scanMembersE_progress depth (setMember key value members) (by omega)
              refine ⟨hrest.1, fun scanned hscanned => ?_⟩
              have := hrest.2 scanned hscanned
              rw [List.length_cons]
              omega
            · exact Progress.error (by decide)
        · exact Progress.error (by decide)
    · exact Progress.error (by decide)

theorem scanItemsE_progress : ∀ {fuel : Nat} (depth : Nat) {s : List Char}, 2 * s.length + 1 < fuel →
    Progress s (scanItemsE lone depth fuel s)
  | 0, _, _, h => absurd h (Nat.not_lt_zero _)
  | fuel + 1, depth, s, h => by
    unfold scanItemsE
    have hvalue : Progress s (scanOnceE lone depth fuel s) := scanOnceE_progress depth (by omega)
    split
    · rename_i e he
      refine Progress.error ?_
      rintro rfl
      exact hvalue.1 he
    · rename_i value rest hok
      have hless := hvalue.2 _ hok
      have hskip := skipWhitespace_length rest
      dsimp only at hless
      split
      · rename_i rest' hend
        rw [hend, List.length_cons] at hskip
        exact Progress.ok (by omega)
      · rename_i rest' hcomma
        rw [hcomma, List.length_cons] at hskip
        have hskipNext := skipWhitespace_length rest'
        exact Progress.map (scanItemsE_progress depth (by omega)) (by omega)
      · exact Progress.error (by decide)

end

/-- Loading never ends for want of fuel. -/
theorem loadBytesE_ne_outOfFuel (depth : Nat) (b : Bytes) : loadBytesE depth b ≠ .error (.scan .outOfFuel) := by
  intro h
  unfold loadBytesE at h
  split at h
  · cases h
  · rename_i s hs
    have hskip := skipWhitespace_length s
    have hprogress : Progress (skipWhitespace s)
        (scanOnceE (some REPLACEMENT) depth (2 * s.length + 1) (skipWhitespace s)) :=
      scanOnceE_progress depth (by omega)
    unfold decodeE at h
    split at h
    · rename_i e he
      obtain rfl : e = .outOfFuel := LoadsError.scan.inj (Except.error.inj h)
      exact hprogress.1 he
    · split_ifs at h
      · cases h
      · cases h

end Python.Json
