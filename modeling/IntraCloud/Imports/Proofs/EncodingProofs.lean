import IntraCloud.Imports.Inspect
import IntraCloud.Python.Proofs.CutsProofs

/-!
# The encoding of a cut sample

A file in UTF-8 is taken for one exactly where the sample does not end within a character.
-/

namespace Imports

open Python

theorem marked_iff {body : Bytes} : body.take 3 = utf8Mark ↔ ∃ rest, body = utf8Mark ++ rest := by
  constructor
  · intro hmark
    exact ⟨body.drop 3, by rw [← hmark, List.take_append_drop]⟩
  · rintro ⟨rest, rfl⟩
    rfl

/-- The first bytes of a file decode without a byte order mark where they end where a character ends. -/
theorem decodeUtf8Sig_take {body : Bytes} (h : (decodeUtf8 body).isSome = true) {n : Nat} (hn : 3 ≤ n) :
    (decodeUtf8Sig (body.take n)).isSome = true ↔ OnBoundary n body := by
  obtain ⟨text, htext⟩ := Option.isSome_iff_exists.mp h
  have hfirst : (body.take n).take 3 = body.take 3 := by
    rw [List.take_take, Nat.min_eq_left hn]
  unfold decodeUtf8Sig
  rw [hfirst]
  by_cases hmark : body.take 3 = utf8Mark
  · obtain ⟨rest, rfl⟩ := marked_iff.mp hmark
    rw [decodeUtf8_mark] at htext
    obtain ⟨-, t, -, ht, -⟩ := consChar_some htext
    have hdrop : ((utf8Mark ++ rest).take n).drop 3 = rest.take (n - 3) := by
      rw [List.drop_take]
      rfl
    have hboundary : OnBoundary n (utf8Mark ++ rest) ↔ OnBoundary (n - 3) rest := by
      have hget : (utf8Mark ++ rest)[n]? = rest[n - 3]? := List.getElem?_append_right hn
      unfold OnBoundary
      rw [hget]
    rw [if_pos hmark, hdrop, decodeUtf8_take ht, hboundary]
  · rw [if_neg hmark]
    exact decodeUtf8_take htext n

/-- The sample of a file in UTF-8 is taken for UTF-8 where it ends where a character ends, for Latin-1 where not. -/
theorem detectEncoding_take {body : Bytes} (h : (decodeUtf8 body).isSome = true) {n : Nat} (hn : 3 ≤ n) :
    (OnBoundary n body → detectEncoding (body.take n) = "utf-8-sig") ∧
      (¬ OnBoundary n body → detectEncoding (body.take n) = "latin-1") := by
  obtain ⟨text, htext⟩ := Option.isSome_iff_exists.mp h
  have hsig := decodeUtf8Sig_take h hn
  have hplain := decodeUtf8_take htext n
  have hstrict : decodeStrict "utf-8-sig" (body.take n) = decodeUtf8Sig (body.take n) := rfl
  have hstrict' : decodeStrict "utf-8" (body.take n) = decodeUtf8 (body.take n) := rfl
  have hstrict'' : decodeStrict "latin-1" (body.take n) = some (decodeLatin1 (body.take n)) := rfl
  unfold detectEncoding ENCODINGS_TO_TRY
  constructor
  · intro hboundary
    rw [List.find?_cons, hstrict, hsig.mpr hboundary]
    rfl
  · intro hcut
    have hnotSig := Bool.not_eq_true _ ▸ mt hsig.mp hcut
    have hnotPlain := Bool.not_eq_true _ ▸ mt hplain.mp hcut
    rw [List.find?_cons, hstrict, hnotSig, List.find?_cons, hstrict', hnotPlain, List.find?_cons, hstrict'']
    rfl

/-- A file in UTF-8 is found to be one exactly where the sample does not end within a character. -/
theorem detectsUtf8_iff (body : Bytes) (h : (decodeUtf8 body).isSome = true) :
    DetectsUtf8 body ↔ OnBoundary SAMPLE_BYTES body := by
  have hlarge : 3 ≤ SAMPLE_BYTES := by decide
  obtain ⟨hfound, hmissed⟩ := detectEncoding_take h hlarge
  unfold DetectsUtf8
  constructor
  · rintro ⟨hencoding, -⟩
    by_contra hcut
    rw [hmissed hcut] at hencoding
    exact absurd hencoding (by decide)
  · intro hboundary
    rw [hfound hboundary]
    have hwhole : (decodeUtf8Sig (body.take (body.length + 3))).isSome = true :=
      (decodeUtf8Sig_take h (Nat.le_add_left 3 _)).mpr (onBoundary_of_length_le (Nat.le_add_right _ 3))
    rw [List.take_of_length_le (Nat.le_add_right _ 3)] at hwhole
    obtain ⟨text, htext⟩ := Option.isSome_iff_exists.mp hwhole
    exact ⟨Or.inl rfl, text, htext, htext⟩

/-- A file that is longer than the sample, with an accent right after it. -/
theorem detectsUtf8_iff_longer : DetectsUtf8 (utf8Encode (List.replicate SAMPLE_BYTES 'a' ++ ['é'])) :=
  (detectsUtf8_iff _ (by rw [decodeUtf8_utf8Encode]; rfl)).mpr (onBoundary_accented SAMPLE_BYTES)

/-! ## An accent at the cut -/

/-- A file of one line, with an accent where the sample ends. -/
def accented : List Char := List.replicate 65535 'a' ++ ['é']

/-- The accent is cut in two, and the file is taken for Latin-1. -/
theorem not_detectsUtf8_accented :
    (decodeUtf8 (utf8Encode accented)).isSome = true ∧ ¬ DetectsUtf8 (utf8Encode accented) := by
  have hvalid : (decodeUtf8 (utf8Encode accented)).isSome = true := by
    rw [decodeUtf8_utf8Encode]
    rfl
  refine ⟨hvalid, fun hdetects => ?_⟩
  have hcut : ¬ OnBoundary SAMPLE_BYTES (utf8Encode accented) := not_onBoundary_accented 65535
  obtain ⟨hencoding, -⟩ := hdetects
  rw [(detectEncoding_take hvalid (by decide)).2 hcut] at hencoding
  exact absurd hencoding (by decide)

end Imports
