import IntraCloud.Python.Proofs.CodecsProofs
import IntraCloud.Python.Proofs.LinesProofs

/-!
# Cuts of UTF-8

The first bytes of valid UTF-8 are valid exactly where they end where a character ends.
-/

namespace Python

theorem onBoundary_succ {n : Nat} {b : UInt8} {bytes : Bytes} :
    OnBoundary (n + 1) (b :: bytes) ↔ OnBoundary n bytes := by
  unfold OnBoundary
  rw [List.getElem?_cons_succ]

theorem onBoundary_of_length_le {n : Nat} {bytes : Bytes} (h : bytes.length ≤ n) : OnBoundary n bytes := by
  intro b hb
  rw [List.getElem?_eq_none h] at hb
  cases hb

theorem isContinuation_iff {b : UInt8} : isContinuation b = true ↔ 0x80 ≤ b.toNat ∧ b.toNat < 0xC0 := by
  simp only [isContinuation, Bool.and_eq_true, decide_eq_true_iff]

theorem consChar_isSome {c : Option Char} {s : Option (List Char)} :
    (consChar c s).isSome = true ↔ c.isSome = true ∧ s.isSome = true := by
  cases c <;> cases s <;> simp [consChar]

/-- What is decoded of the first bytes, from within a character as well. -/
theorem utf8Decode_take {bytes : Bytes} {need least value : Nat} {text : List Char}
    (h : utf8Decode none need least value bytes = some text) (n : Nat) :
    (utf8Decode none need least value (bytes.take n)).isSome = true ↔ OnBoundary n bytes := by
  induction bytes generalizing need least value text n with
  | nil =>
    rw [List.take_nil, h]
    exact ⟨fun _ => onBoundary_of_length_le (Nat.zero_le n), fun _ => rfl⟩
  | cons b bytes ih =>
    cases n with
    | zero =>
      have hboundary : OnBoundary 0 (b :: bytes) ↔ ¬ (0x80 ≤ b.toNat ∧ b.toNat < 0xC0) := by
        rw [← isContinuation_iff, Bool.not_eq_true]
        constructor
        · intro hcut
          exact hcut b rfl
        · intro hb x hx
          rw [← Option.some.inj hx]
          exact hb
      rw [List.take_zero, hboundary]
      cases need with
      | zero =>
        refine ⟨fun _ hrange => ?_, fun _ => rfl⟩
        rw [utf8Decode, if_neg (by omega), if_pos hrange.2] at h
        cases h
      | succ need =>
        constructor
        · intro hnone
          cases hnone
        · intro hrange
          rw [utf8Decode, if_neg hrange] at h
          cases h
    | succ n =>
      have hcons : ∀ {c : Option Char}, consChar c (utf8Decode none 0 0 0 bytes) = some text →
          ((consChar c (utf8Decode none 0 0 0 (bytes.take n))).isSome = true ↔ OnBoundary n bytes) := by
        intro c hc
        obtain ⟨x, t, rfl, ht, rfl⟩ := consChar_some hc
        rw [consChar_isSome, ih ht n]
        exact and_iff_right rfl
      rw [List.take_succ_cons, onBoundary_succ]
      cases need with
      | zero =>
        simp only [utf8Decode] at h ⊢
        split_ifs at h ⊢
        · exact hcons h
        · exact ih h n
        · exact ih h n
        · exact ih h n
      | succ need =>
        simp only [utf8Decode] at h ⊢
        split_ifs at h ⊢
        · exact hcons h
        · exact ih h n

theorem decodeUtf8_take {bytes : Bytes} {text : List Char} (h : decodeUtf8 bytes = some text) (n : Nat) :
    (decodeUtf8 (bytes.take n)).isSome = true ↔ OnBoundary n bytes := utf8Decode_take h n

/-- A byte order mark is a character. -/
theorem decodeUtf8_mark (bytes : Bytes) :
    decodeUtf8 (utf8Mark ++ bytes) = consChar (some '\uFEFF') (decodeUtf8 bytes) :=
  utf8Decode_char none '\uFEFF' bytes

/-! ## An accent after plain letters -/

theorem utf8Encode_replicate (n : Nat) : utf8Encode (List.replicate n 'a') = List.replicate n 0x61 := by
  induction n with
  | zero => rfl
  | succ n ih =>
    rw [List.replicate_succ, List.replicate_succ, ← ih]
    rfl

theorem utf8Encode_accented (n : Nat) :
    utf8Encode (List.replicate n 'a' ++ ['é']) = List.replicate n 0x61 ++ [0xC3, 0xA9] := by
  rw [utf8Encode, List.flatMap_append, ← utf8Encode, utf8Encode_replicate]
  rfl

/-- A cut before the accent. -/
theorem onBoundary_accented (n : Nat) : OnBoundary n (utf8Encode (List.replicate n 'a' ++ ['é'])) := by
  intro b hb
  have hlength : (List.replicate n (0x61 : UInt8)).length ≤ n := Nat.le_of_eq List.length_replicate
  rw [utf8Encode_accented, List.getElem?_append_right hlength, List.length_replicate, Nat.sub_self] at hb
  obtain rfl := Option.some.inj hb
  decide

/-- A cut within the accent. -/
theorem not_onBoundary_accented (n : Nat) :
    ¬ OnBoundary (n + 1) (utf8Encode (List.replicate n 'a' ++ ['é'])) := by
  intro hboundary
  have hget : (utf8Encode (List.replicate n 'a' ++ ['é']))[n + 1]? = some 0xA9 := by
    rw [utf8Encode_accented, List.getElem?_append_right (by rw [List.length_replicate]; omega),
      List.length_replicate, Nat.add_sub_cancel_left]
    rfl
  exact absurd (hboundary 0xA9 hget) (by decide)

end Python
