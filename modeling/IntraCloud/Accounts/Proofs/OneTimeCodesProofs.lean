import IntraCloud.Accounts.OneTimeCodes
import IntraCloud.Python.Proofs.Base32Proofs
import IntraCloud.Python.Proofs.NumbersProofs
import Mathlib.Algebra.Order.Floor.Ring
import Mathlib.Tactic.NormNum
import Mathlib.Tactic.SplitIfs

/-!
# Which codes are verified

Each code of the program is the code of the standard. The comparison raises on digits that are not ASCII, and
`struct.pack` on counters of more than eight bytes.
-/

namespace Accounts

open Python

variable {hmacSha1 : HmacSha1} {token : Bytes} {time : ℚ} {code : List Char}

/-! ## Secrets -/

/-- A generated secret decodes to its bytes. -/
theorem secretKey?_generateSecret (htoken : token.length = 20) : secretKey? (generateSecret token) = some token := by
  have hgroups : token.length % 5 = 0 := by rw [htoken]
  have hlength : (b32Quanta token).length = 32 := by rw [length_b32Quanta, htoken]
  unfold secretKey? generateSecret
  rw [rstripEquals_b32encode hgroups, hlength]
  exact (congrArg b32decode (List.append_nil _)).trans (b32decode_b32Quanta hgroups)

/-! ## Codes -/

theorem length_fixedDigits (width n : Nat) : (fixedDigits width n).length = width := by
  induction width generalizing n with
  | zero => rfl
  | succ width ih => rw [fixedDigits, List.length_append, ih, List.length_singleton]

theorem isDigit_of_mem_fixedDigits {width n : Nat} {c : Char} (h : c ∈ fixedDigits width n) :
    isDigit c = true := by
  induction width generalizing n with
  | zero => cases h
  | succ width ih =>
    rw [fixedDigits] at h
    rcases List.mem_append.mp h with h | h
    · exact ih h
    · rw [List.mem_singleton.mp h, isDigit_iff, Nat.toNat_digitChar_of_lt_ten (Nat.mod_lt n (by omega))]
      omega

/-- `str(n).zfill(width)` of a number that is not too long. -/
theorem zfill_natText {width n : Nat} (h : n < Nat.pow 10 (width + 1)) :
    zfill (width + 1) (natText n) = fixedDigits (width + 1) n := by
  induction width generalizing n with
  | zero =>
    have hlt : n < 10 := h
    rw [natText, Nat.toDigits_of_lt_base hlt, fixedDigits, fixedDigits, Nat.mod_eq_of_lt hlt]
    rfl
  | succ width ih =>
    rw [fixedDigits]
    by_cases hlt : n < 10
    · have hzero := ih (n := 0) (Nat.pow_pos (by omega))
      rw [Nat.div_eq_of_lt hlt, Nat.mod_eq_of_lt hlt, ← hzero, natText, natText, Nat.toDigits_zero,
        Nat.toDigits_of_lt_base hlt]
      unfold zfill
      rw [List.length_singleton, List.length_singleton, Nat.add_sub_cancel, Nat.add_sub_cancel, List.replicate_succ']
    · have hdiv : n / 10 < Nat.pow 10 (width + 1) := Nat.div_lt_of_lt_mul (by rw [Nat.mul_comm]; exact h)
      rw [← ih hdiv, natText, Nat.toDigits_of_base_le (by omega) (Nat.not_lt.mp hlt)]
      unfold zfill natText
      rw [List.length_append, List.length_singleton, Nat.add_sub_add_right, List.append_assoc]

theorem getD_drop_take (digest : Bytes) (offset : Nat) (h : offset + 4 ≤ digest.length) :
    (digest.drop offset).take 4 =
      [digest.getD offset 0, digest.getD (offset + 1) 0, digest.getD (offset + 2) 0, digest.getD (offset + 3) 0] := by
  apply List.ext_getElem
  · rw [List.length_take, List.length_drop]
    simp only [List.length_cons, List.length_nil]
    omega
  · intro i hi hi'
    simp only [List.length_cons, List.length_nil] at hi'
    rw [List.getElem_take, List.getElem_drop]
    match i, hi' with
    | 0, _ => simp [List.getD_eq_getElem?_getD, List.getElem?_eq_getElem (show offset < digest.length by omega)]
    | 1, _ => simp [List.getD_eq_getElem?_getD, List.getElem?_eq_getElem (show offset + 1 < digest.length by omega)]
    | 2, _ => simp [List.getD_eq_getElem?_getD, List.getElem?_eq_getElem (show offset + 2 < digest.length by omega)]
    | 3, _ => simp [List.getD_eq_getElem?_getD, List.getElem?_eq_getElem (show offset + 3 < digest.length by omega)]

/-- The code truncates as the standard does. -/
theorem truncated_eq {digest : Bytes} (h : digest.length = 20) :
    (((digest.drop ((digest.getLastD 0).toNat % 16)).take 4).foldl (fun n b => 256 * n + b.toNat) 0) % 2147483648 =
      dynamicTruncation digest := by
  have hlast : digest.getLastD 0 = digest.getD 19 0 := by
    rw [List.getLastD_eq_getLast?, List.getLast?_eq_getElem?, h, List.getD_eq_getElem?_getD]
  have hoffset : (digest.getD 19 0).toNat % 16 + 4 ≤ digest.length := by omega
  unfold dynamicTruncation
  rw [hlast, getD_drop_take digest _ hoffset]
  dsimp only
  generalize (digest.getD 19 0).toNat % 16 = offset
  have h0 := (digest.getD offset 0).toNat_lt
  have h1 := (digest.getD (offset + 1) 0).toNat_lt
  have h2 := (digest.getD (offset + 2) 0).toNat_lt
  have h3 := (digest.getD (offset + 3) 0).toNat_lt
  simp only [List.foldl_cons, List.foldl_nil, Nat.add_zero]
  omega

theorem toBytes?_eight {n : Nat} : (toBytes? 8 n).isSome = true ↔ n < 18446744073709551616 := by
  have hpow : ∀ {width n : Nat}, (toBytes? width n).isSome = true → n < Nat.pow 256 width := by
    intro width
    induction width with
    | zero =>
      intro n h
      rw [toBytes?] at h
      split_ifs at h with hn
      · subst hn
        exact Nat.one_pos
      · cases h
    | succ width ih =>
      intro n h
      rw [toBytes?, Option.isSome_map] at h
      have hdiv := ih h
      exact (Nat.div_lt_iff_lt_mul (by omega)).mp hdiv
  constructor
  · intro h
    exact hpow h
  · intro h
    obtain ⟨b, hb⟩ : ∃ b, toBytes? 8 n = some b := toBytes?_of_lt h
    rw [hb]
    rfl

/-- The code of a counter is the standard's. -/
theorem hotp_eq_standardCode (hlength : ∀ key message, (hmacSha1 key message).length = 20)
    (htoken : token.length = 20) (counter : Int) :
    hotp (hmacOf hmacSha1) (generateSecret token) counter = standardCode hmacSha1 token counter := by
  unfold hotp standardCode
  by_cases hneg : counter < 0
  · rw [if_neg fun h => absurd h.1 (Int.not_le.mpr hneg), if_pos hneg]
  · rw [if_neg hneg]
    by_cases hfits : counter.toNat < 18446744073709551616
    · obtain ⟨message, hmessage⟩ := Option.isSome_iff_exists.mp (toBytes?_eight.mpr hfits)
      have hrange : 0 ≤ counter ∧ counter < 18446744073709551616 := ⟨Int.not_lt.mp hneg, by omega⟩
      have hdigest : hmacOf hmacSha1 (generateSecret token) counter.toNat = hmacSha1 token message := by
        unfold hmacOf
        rw [secretKey?_generateSecret htoken, hmessage]
        rfl
      rw [if_pos hrange, hmessage, hdigest, Option.map_some]
      dsimp only
      rw [truncated_eq (hlength token message)]
      congr 1
      exact zfill_natText (Nat.mod_lt _ (by omega))
    · have hnone : toBytes? 8 counter.toNat = none := by
        rw [← Option.not_isSome_iff_eq_none, toBytes?_eight]
        exact hfits
      rw [hnone, if_neg fun h => hfits (by omega)]
      rfl

theorem standardCode_isSome {key : Bytes} {counter : Int} (h : 0 ≤ counter) :
    (standardCode hmacSha1 key counter).isSome = true ↔ counter < 18446744073709551616 := by
  rw [standardCode, if_neg (Int.not_lt.mpr h), Option.isSome_map, toBytes?_eight]
  omega

/-- A code of the standard is six ASCII digits. -/
theorem shape_of_standardCode {key : Bytes} {counter : Int} (h : standardCode hmacSha1 key counter = some code) :
    (isDigitText code = true ∧ code.length = DIGITS) ∧ ∀ c ∈ code, c.toNat < 128 := by
  unfold standardCode at h
  split_ifs at h
  obtain ⟨message, _, rfl⟩ := Option.map_eq_some_iff.mp h
  generalize dynamicTruncation (hmacSha1 key message) % 1000000 = n
  have hlength := length_fixedDigits DIGITS n
  have hdigit : ∀ c ∈ fixedDigits DIGITS n, isDigit c = true := fun c hc => isDigit_of_mem_fixedDigits hc
  have hne : fixedDigits DIGITS n ≠ [] := by
    intro hnil
    rw [hnil] at hlength
    cases hlength
  refine ⟨⟨?_, hlength⟩, ?_⟩
  · unfold isDigitText
    rw [Bool.and_eq_true, Bool.not_eq_true', List.isEmpty_eq_false_iff, List.all_eq_true]
    refine ⟨hne, ?_⟩
    intro c hc
    rw [decimalDigit?_of_isDigit (hdigit c hc)]
    rfl
  · intro c hc
    have hrange := (isDigit_iff c).mp (hdigit c hc)
    omega

/-! ## Any of the comparisons -/

theorem mem_of_anyOf_true {xs : List (Option Bool)} (h : anyOf xs = some true) : some true ∈ xs := by
  induction xs with
  | nil => cases h
  | cons x xs ih =>
    match x, h with
    | some true, _ => exact List.mem_cons_self ..
    | some false, h => exact List.mem_cons_of_mem _ (ih h)

theorem eq_of_anyOf_false {xs : List (Option Bool)} (h : anyOf xs = some false) : ∀ x ∈ xs, x = some false := by
  induction xs with
  | nil =>
    intro x hx
    cases hx
  | cons x xs ih =>
    match x, h with
    | some false, h =>
      intro y hy
      rcases List.mem_cons.mp hy with rfl | hy
      · rfl
      · exact ih h y hy

/-- What comes after the first that is true is not looked at. -/
theorem anyOf_append_true {before rest : List (Option Bool)} (h : ∀ x ∈ before, x.isSome = true) :
    anyOf (before ++ some true :: rest) = some true := by
  induction before with
  | nil => rfl
  | cons x before ih =>
    have hrest := ih fun y hy => h y (List.mem_cons_of_mem _ hy)
    match x, h x (List.mem_cons_self ..) with
    | some true, _ => rfl
    | some false, _ => exact hrest

theorem anyOf_isSome {xs : List (Option Bool)} (h : ∀ x ∈ xs, x.isSome = true) : (anyOf xs).isSome = true := by
  induction xs with
  | nil => rfl
  | cons x xs ih =>
    have hrest := ih fun y hy => h y (List.mem_cons_of_mem _ hy)
    match x, h x (List.mem_cons_self ..) with
    | some true, _ => rfl
    | some false, _ => exact hrest

/-! ## Verification -/

/-- What the verification compares the code with for one counter. -/
def comparedAt (hmacSha1 : HmacSha1) (token : Bytes) (code : List Char) (counter : Int) : Option Bool :=
  (standardCode hmacSha1 token counter).bind fun expected => compareDigest expected code

theorem verifyTotpAt_of_unshaped {hmac : Hmac} {secret : Secret}
    (h : ¬ (isDigitText code = true ∧ code.length = DIGITS)) : verifyTotpAt hmac secret code time = some false := by
  unfold verifyTotpAt
  rw [if_pos]
  by_cases hdigits : isDigitText code = true
  · exact Or.inr (Or.inr fun hlength => h ⟨hdigits, hlength⟩)
  · exact Or.inr (Or.inl hdigits)

theorem verifyTotpAt_of_shaped (hlength : ∀ key message, (hmacSha1 key message).length = 20)
    (htoken : token.length = 20) (h : isDigitText code = true ∧ code.length = DIGITS) :
    verifyTotpAt (hmacOf hmacSha1) (generateSecret token) code time =
      anyOf ([counterAt time - 1, counterAt time, counterAt time + 1].map (comparedAt hmacSha1 token code)) := by
  have hne : code ≠ [] := by
    rintro rfl
    cases h.2
  have hguard : ¬ (code = [] ∨ ¬ isDigitText code = true ∨ code.length ≠ DIGITS) := by
    rintro (hnil | hdigits | hlength)
    · exact hne hnil
    · exact hdigits h.1
    · exact hlength h.2
  have hrange : List.range (2 * VERIFY_WINDOW + 1) = [0, 1, 2] := rfl
  have hcompared : ∀ counter, ((hotp (hmacOf hmacSha1) (generateSecret token) counter).bind
      fun expected => compareDigest expected code) = comparedAt hmacSha1 token code counter := by
    intro counter
    rw [hotp_eq_standardCode hlength htoken, comparedAt]
  have hwindow : ((VERIFY_WINDOW : Nat) : Int) = 1 := rfl
  have hbefore : counterAt time + ((0 : Nat) : Int) - 1 = counterAt time - 1 := by omega
  have hat : counterAt time + ((1 : Nat) : Int) - 1 = counterAt time := by omega
  have hafter : counterAt time + ((2 : Nat) : Int) - 1 = counterAt time + 1 := by omega
  unfold verifyTotpAt
  rw [if_neg hguard, hrange]
  simp only [List.map_cons, List.map_nil, hcompared, hwindow, hbefore, hat, hafter]

/-- A digit that is not ASCII cannot be compared with anything. -/
theorem comparedAt_of_not_ascii {counter : Int} (h : ¬ ∀ c ∈ code, c.toNat < 128) :
    comparedAt hmacSha1 token code counter = none := by
  rw [comparedAt, Option.bind_eq_none_iff]
  intro expected _
  unfold compareDigest
  rw [if_neg]
  intro hall
  apply h
  intro c hc
  exact of_decide_eq_true (List.all_eq_true.mp hall c (List.mem_append_right _ hc))

theorem comparedAt_of_ascii {counter : Int} (h : ∀ c ∈ code, c.toNat < 128) :
    comparedAt hmacSha1 token code counter =
      (standardCode hmacSha1 token counter).map fun expected => expected == code := by
  unfold comparedAt
  cases hexpected : standardCode hmacSha1 token counter with
  | none => rfl
  | some expected =>
    have hascii := (shape_of_standardCode hexpected).2
    rw [Option.bind_some, Option.map_some]
    unfold compareDigest
    rw [if_pos]
    rw [List.all_eq_true]
    intro c hc
    apply decide_eq_true
    rcases List.mem_append.mp hc with hc | hc
    · exact hascii c hc
    · exact h c hc

theorem comparedAt_eq_true {counter : Int} (h : ∀ c ∈ code, c.toNat < 128) :
    comparedAt hmacSha1 token code counter = some true ↔ standardCode hmacSha1 token counter = some code := by
  rw [comparedAt_of_ascii h, Option.map_eq_some_iff]
  constructor
  · rintro ⟨expected, hexpected, heq⟩
    rw [hexpected, eq_of_beq heq]
  · intro hcode
    exact ⟨code, hcode, beq_self_eq_true code⟩

theorem comparedAt_isSome {counter : Int} (h : ∀ c ∈ code, c.toNat < 128) (hpos : 0 ≤ counter) :
    (comparedAt hmacSha1 token code counter).isSome = true ↔ counter < 18446744073709551616 := by
  rw [comparedAt_of_ascii h, Option.isSome_map, standardCode_isSome hpos]

theorem one_le_counterAt (h : 30 ≤ time) : 1 ≤ counterAt time := by
  have hperiod : (PERIOD_SECONDS : ℚ) = 30 := rfl
  unfold counterAt
  rw [Int.le_floor, hperiod, Int.cast_one, le_div_iff₀ (by norm_num), one_mul]
  exact h

/-- Verified codes are those near the time. -/
theorem verifyTotpAt_eq_true (hlength : ∀ key message, (hmacSha1 key message).length = 20)
    (htoken : token.length = 20) (htime : 30 ≤ time) (hascii : ∀ c ∈ code, c.toNat < 128) :
    verifyTotpAt (hmacOf hmacSha1) (generateSecret token) code time = some true ↔
      IsCodeNear hmacSha1 token time code := by
  have hpos := one_le_counterAt htime
  constructor
  · intro h
    by_cases hshape : isDigitText code = true ∧ code.length = DIGITS
    · rw [verifyTotpAt_of_shaped hlength htoken hshape] at h
      obtain ⟨counter, hcounter, htrue⟩ := List.mem_map.mp (mem_of_anyOf_true h)
      have hnear : |counter - counterAt time| ≤ 1 := by
        rw [abs_le]
        simp only [List.mem_cons, List.not_mem_nil, or_false] at hcounter
        omega
      exact ⟨counter, hnear, (comparedAt_eq_true hascii).mp htrue⟩
    · rw [verifyTotpAt_of_unshaped hshape] at h
      cases h
  · rintro ⟨counter, hnear, hcode⟩
    have hshape := (shape_of_standardCode hcode).1
    have htrue := (comparedAt_eq_true hascii).mpr hcode
    have hsome : (comparedAt hmacSha1 token code counter).isSome = true := by rw [htrue]; rfl
    rw [abs_le] at hnear
    have hlt := (comparedAt_isSome hascii (by omega)).mp hsome
    -- the counters before one of eight bytes take no more
    have hearlier : ∀ earlier, 0 ≤ earlier → earlier ≤ counter →
        (comparedAt hmacSha1 token code earlier).isSome = true := by
      intro earlier hnonneg hle
      exact (comparedAt_isSome hascii hnonneg).mpr (by omega)
    rw [verifyTotpAt_of_shaped hlength htoken hshape]
    have hcases : counter = counterAt time - 1 ∨ counter = counterAt time ∨ counter = counterAt time + 1 := by
      omega
    rcases hcases with rfl | rfl | rfl
    · rw [List.map_cons, htrue]
      rfl
    · rw [List.map_cons, List.map_cons, htrue]
      have hbefore := hearlier (counterAt time - 1) (by omega) (by omega)
      show anyOf ([_] ++ some true :: _) = some true
      apply anyOf_append_true
      intro x hx
      rw [List.mem_singleton.mp hx]
      exact hbefore
    · rw [List.map_cons, List.map_cons, List.map_cons, htrue]
      have hfirst := hearlier (counterAt time - 1) (by omega) (by omega)
      have hsecond := hearlier (counterAt time) (by omega) (by omega)
      show anyOf ([_, _] ++ some true :: _) = some true
      apply anyOf_append_true
      intro x hx
      rcases List.mem_cons.mp hx with rfl | hx
      · exact hfirst
      · rw [List.mem_singleton.mp hx]
        exact hsecond

/-- The verification of six ASCII digits returns when each counter can be packed, or one before it matches. -/
theorem verifyTotpAt_isSome (hlength : ∀ key message, (hmacSha1 key message).length = 20)
    (htoken : token.length = 20) (htime : 30 ≤ time) (hshape : isDigitText code = true ∧ code.length = DIGITS)
    (hascii : ∀ c ∈ code, c.toNat < 128) :
    (verifyTotpAt (hmacOf hmacSha1) (generateSecret token) code time).isSome = true ↔
      counterAt time + 1 < 18446744073709551616 ∨
        ∃ counter, (counter = counterAt time - 1 ∨ counter = counterAt time) ∧
          standardCode hmacSha1 token counter = some code := by
  have hpos := one_le_counterAt htime
  constructor
  · intro h
    obtain ⟨verified, hverified⟩ := Option.isSome_iff_exists.mp h
    cases verified with
    | true =>
      obtain ⟨counter, hnear, hcode⟩ := (verifyTotpAt_eq_true hlength htoken htime hascii).mp hverified
      rw [abs_le] at hnear
      by_cases hafter : counter = counterAt time + 1
      · have hsome : (standardCode hmacSha1 token counter).isSome = true := by rw [hcode]; rfl
        have hlt := (standardCode_isSome (by omega)).mp hsome
        exact Or.inl (by omega)
      · exact Or.inr ⟨counter, by omega, hcode⟩
    | false =>
      rw [verifyTotpAt_of_shaped hlength htoken hshape] at hverified
      have hafter : comparedAt hmacSha1 token code (counterAt time + 1) = some false :=
        eq_of_anyOf_false hverified _ (List.mem_map_of_mem (by simp))
      have hsome : (comparedAt hmacSha1 token code (counterAt time + 1)).isSome = true := by rw [hafter]; rfl
      exact Or.inl ((comparedAt_isSome hascii (by omega)).mp hsome)
  · rintro (hlt | ⟨counter, hcounter, hcode⟩)
    · rw [verifyTotpAt_of_shaped hlength htoken hshape]
      apply anyOf_isSome
      intro x hx
      obtain ⟨counter, hcounter, rfl⟩ := List.mem_map.mp hx
      simp only [List.mem_cons, List.not_mem_nil, or_false] at hcounter
      exact (comparedAt_isSome hascii (by omega)).mpr (by omega)
    · have hnear : |counter - counterAt time| ≤ 1 := by
        rw [abs_le]
        omega
      rw [(verifyTotpAt_eq_true hlength htoken htime hascii).mpr ⟨counter, hnear, hcode⟩]
      rfl

/-- A code with a digit that is not ASCII makes the verification raise. -/
theorem verifyTotpAt_of_not_ascii (hlength : ∀ key message, (hmacSha1 key message).length = 20)
    (htoken : token.length = 20) (hshape : isDigitText code = true ∧ code.length = DIGITS)
    (hascii : ¬ ∀ c ∈ code, c.toNat < 128) :
    verifyTotpAt (hmacOf hmacSha1) (generateSecret token) code time = none := by
  rw [verifyTotpAt_of_shaped hlength htoken hshape, List.map_cons, comparedAt_of_not_ascii hascii]
  rfl

/-- With the time in whole seconds, the verification is the one of the two-factor steps. -/
theorem verifyTotpAt_natCast (hmac : Hmac) (secret : Secret) (now : Nat) :
    verifyTotpAt hmac secret code now = verifyTotp hmac secret code now := by
  have hcounter : counterAt (now : ℚ) = ((now / PERIOD_SECONDS : Nat) : Int) := by
    unfold counterAt
    rw [Rat.floor_natCast_div_natCast, Int.natCast_div]
  unfold verifyTotpAt verifyTotp
  rw [hcounter]

/-- `verify_totp` decides about exactly the verifiable codes, and accepts a generated code when it is near. -/
theorem verifiesCode_iff (hlength : ∀ key message, (hmacSha1 key message).length = 20)
    (htoken : token.length = 20) (htime : 30 ≤ time) :
    (VerifiesCode hmacSha1 token time code ↔ Verifiable hmacSha1 token time code) ∧
      ∀ time' code', generateTotpAt (hmacOf hmacSha1) (generateSecret token) time' = some code' →
        (verifyTotpAt (hmacOf hmacSha1) (generateSecret token) code' time = some true ↔
            IsCodeNear hmacSha1 token time code') ∧
          (|counterAt time' - counterAt time| ≤ 1 →
            verifyTotpAt (hmacOf hmacSha1) (generateSecret token) code' time = some true) := by
  refine ⟨?_, ?_⟩
  · unfold VerifiesCode Verifiable
    by_cases hshape : isDigitText code = true ∧ code.length = DIGITS
    · by_cases hascii : ∀ c ∈ code, c.toNat < 128
      · rw [← verifyTotpAt_isSome hlength htoken htime hshape hascii,
          ← verifyTotpAt_eq_true hlength htoken htime hascii, Option.isSome_iff_exists]
        constructor
        · rintro ⟨verified, hverified, _⟩
          exact Or.inr ⟨hascii, verified, hverified⟩
        · rintro (hshape' | ⟨_, verified, hverified⟩)
          · exact absurd hshape hshape'
          · rw [hverified]
            exact ⟨verified, rfl, by rw [Option.some.injEq]⟩
      · rw [verifyTotpAt_of_not_ascii hlength htoken hshape hascii]
        constructor
        · rintro ⟨_, hverified, _⟩
          cases hverified
        · rintro (hshape' | ⟨hascii', _⟩)
          · exact absurd hshape hshape'
          · exact absurd hascii' hascii
    · constructor
      · intro _
        exact Or.inl hshape
      · intro _
        refine ⟨false, verifyTotpAt_of_unshaped hshape, ?_⟩
        constructor
        · intro h
          cases h
        · rintro ⟨counter, _, hcode⟩
          exact absurd (shape_of_standardCode hcode).1 hshape
  · intro time' code' hgenerated
    unfold generateTotpAt at hgenerated
    rw [hotp_eq_standardCode hlength htoken] at hgenerated
    have hnear := verifyTotpAt_eq_true hlength htoken htime (shape_of_standardCode hgenerated).2
    exact ⟨hnear, fun hcounters => hnear.mpr ⟨_, hcounters, hgenerated⟩⟩

/-! ## The test key of the standard -/

/-- `"12345678901234567890"`. -/
def testKey : Bytes := [49, 50, 51, 52, 53, 54, 55, 56, 57, 48, 49, 50, 51, 52, 53, 54, 55, 56, 57, 48]

/-- HMAC-SHA-1 of the first counters under the test key. -/
def testHmac : HmacSha1 := fun key message =>
  if key = testKey ∧ message = [0, 0, 0, 0, 0, 0, 0, 0] then
    [204, 147, 207, 24, 80, 141, 148, 147, 76, 100, 182, 93, 139, 167, 102, 127, 183, 205, 228, 176]
  else if key = testKey ∧ message = [0, 0, 0, 0, 0, 0, 0, 1] then
    [117, 164, 138, 25, 212, 203, 225, 0, 100, 78, 138, 193, 57, 126, 234, 116, 122, 45, 51, 171]
  else if key = testKey ∧ message = [0, 0, 0, 0, 0, 0, 0, 2] then
    [11, 172, 183, 250, 8, 47, 239, 48, 120, 34, 17, 147, 139, 193, 197, 231, 4, 22, 255, 68]
  else List.replicate 20 0

theorem length_testHmac (key message : Bytes) : (testHmac key message).length = 20 := by
  unfold testHmac
  split_ifs
  · rfl
  · rfl
  · rfl
  · exact List.length_replicate

theorem counterAt_testTime : counterAt 59 = 1 := by
  have hperiod : (PERIOD_SECONDS : ℚ) = 30 := rfl
  unfold counterAt
  rw [hperiod, Int.floor_eq_iff]
  norm_num

theorem generateTotpAt_testKey :
    generateTotpAt (hmacOf testHmac) (generateSecret testKey) 59 = some "287082".toList := by
  unfold generateTotpAt
  rw [hotp_eq_standardCode length_testHmac rfl, counterAt_testTime]
  decide

theorem verifiesCode_iff_testKey :
    verifyTotpAt (hmacOf testHmac) (generateSecret testKey) "287082".toList 59 = some true := by
  have htime : (30 : ℚ) ≤ 59 := by norm_num
  have hnear : |counterAt 59 - counterAt 59| ≤ 1 := by
    rw [sub_self]
    decide
  exact ((@verifiesCode_iff testHmac testKey 59 "287082".toList length_testHmac rfl htime).2 59 "287082".toList
    generateTotpAt_testKey).2 hnear

/-- Six superscript twos make the verification raise. -/
theorem verifiesCode_superscripts :
    (30 : ℚ) ≤ 59 ∧ ¬ VerifiesCode testHmac testKey 59 ['²', '²', '²', '²', '²', '²'] := by
  refine ⟨by norm_num, ?_⟩
  rintro ⟨verified, hverified, _⟩
  have hascii : ¬ ∀ c ∈ ['²', '²', '²', '²', '²', '²'], c.toNat < 128 := by
    intro h
    exact absurd (h '²' (List.mem_cons_self ..)) (by decide)
  rw [verifyTotpAt_of_not_ascii length_testHmac rfl (by decide) hascii] at hverified
  cases hverified

end Accounts
