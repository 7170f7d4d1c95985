import IntraCloud.Python.Codecs
import IntraCloud.Python.Proofs.CsvLinesProofs

/-!
# Lines of bytes and lines of text

`bytes.splitlines` of lines with their ends, and decoders under which the lines of the bytes are those of
the text: UTF-8 and Latin-1.
-/

namespace Python

/-! ## Splitting -/

/-- The byte ends a line. -/
def EndsLine (b : UInt8) : Prop := b = 10 ∨ b = 13

theorem splitlinesFrom_cons {b : UInt8} (hb : ¬ EndsLine b) (line : List UInt8) (afterReturn : Bool)
    (bytes : List UInt8) :
    splitlinesFrom line afterReturn (b :: bytes) = splitlinesFrom (line ++ [b]) false bytes := by
  have h10 : b ≠ 10 := fun h => hb (.inl h)
  have h13 : b ≠ 13 := fun h => hb (.inr h)
  rw [splitlinesFrom, if_neg h10, if_neg h13]

theorem splitlinesFrom_append {bs : List UInt8} (hbs : ∀ b ∈ bs, ¬ EndsLine b) (line bytes : List UInt8) :
    splitlinesFrom line false (bs ++ bytes) = splitlinesFrom (line ++ bs) false bytes := by
  induction bs generalizing line with
  | nil => rw [List.nil_append, List.append_nil]
  | cons b bs ih =>
    obtain ⟨hb, hbs⟩ := List.forall_mem_cons.mp hbs
    rw [List.cons_append, splitlinesFrom_cons hb, ih hbs, List.append_assoc, List.singleton_append]

/-- Carriage returns and a line feed after a carriage return. -/
theorem splitlinesFrom_returns (j : Nat) (bytes : List UInt8) :
    splitlinesFrom [] true (List.replicate j 13 ++ 10 :: bytes) =
      List.replicate j [] ++ splitlines bytes := by
  induction j with
  | zero => rfl
  | succ j ih =>
    rw [List.replicate_succ, List.replicate_succ, List.cons_append, List.cons_append, ← ih]
    rfl

theorem splitlinesFrom_returns_end (j : Nat) :
    splitlinesFrom [] true (List.replicate j 13) = List.replicate j [] := by
  induction j with
  | zero => rfl
  | succ j ih =>
    rw [List.replicate_succ, List.replicate_succ, ← ih]
    rfl

/-- A line that ends with carriage returns and a line feed. -/
theorem splitlines_line {bs : List UInt8} (hbs : ∀ b ∈ bs, ¬ EndsLine b) (j : Nat) (bytes : List UInt8) :
    splitlines (bs ++ (List.replicate j 13 ++ 10 :: bytes)) =
      bs :: (List.replicate (j - 1) [] ++ splitlines bytes) := by
  rw [splitlines, splitlinesFrom_append hbs, List.nil_append]
  cases j with
  | zero => rfl
  | succ j =>
    rw [List.replicate_succ, List.cons_append, Nat.add_sub_cancel, ← splitlinesFrom_returns]
    rfl

/-- The last line, which may end with carriage returns. -/
theorem splitlines_last {bs : List UInt8} (hbs : ∀ b ∈ bs, ¬ EndsLine b) (j : Nat)
    (hne : bs ++ List.replicate j 13 ≠ []) :
    splitlines (bs ++ List.replicate j 13) = bs :: List.replicate (j - 1) [] := by
  rw [splitlines, splitlinesFrom_append hbs, List.nil_append]
  cases j with
  | zero =>
    have hbs : bs ≠ [] := by
      rintro rfl
      exact hne rfl
    rw [List.replicate_zero, splitlinesFrom, if_neg hbs]
    rfl
  | succ j =>
    rw [List.replicate_succ, Nat.add_sub_cancel, ← splitlinesFrom_returns_end]
    rfl

/-- No line has a byte in it that ends one. -/
theorem endsLine_of_mem_splitlinesFrom {bytes line l : List UInt8} {afterReturn : Bool}
    (hline : ∀ b ∈ line, ¬ EndsLine b) (hl : l ∈ splitlinesFrom line afterReturn bytes) :
    ∀ b ∈ l, ¬ EndsLine b := by
  induction bytes generalizing line afterReturn with
  | nil =>
    rw [splitlinesFrom] at hl
    split at hl
    · cases hl
    · rw [List.mem_singleton.mp hl]
      exact hline
  | cons x bytes ih =>
    have hnil : ∀ b ∈ ([] : List UInt8), ¬ EndsLine b := fun b hb => absurd hb List.not_mem_nil
    rw [splitlinesFrom] at hl
    split at hl
    · split at hl
      · exact ih hnil hl
      · rcases List.mem_cons.mp hl with rfl | hl
        · exact hline
        · exact ih hnil hl
    · rename_i h10
      split at hl
      · rcases List.mem_cons.mp hl with rfl | hl
        · exact hline
        · exact ih hnil hl
      · rename_i h13
        refine ih ?_ hl
        intro b hb
        rcases List.mem_append.mp hb with hb | hb
        · exact hline b hb
        · rw [List.mem_singleton.mp hb]
          rintro (h | h)
          · exact h10 h
          · exact h13 h

/-! ## Decoders -/

/-- A decoder under which bytes that end lines are the characters that do, and nothing else is. -/
structure LineDecoder (decode : Bytes → Option (List Char)) : Prop where
  nil : decode [] = some []
  empty : ∀ bytes, decode bytes = some [] → bytes = []
  split : ∀ before b after text, EndsLine b → decode (before ++ b :: after) = some text →
    ∃ s s', decode before = some s ∧ decode after = some s' ∧ text = s ++ Char.ofNat b.toNat :: s'
  free : ∀ bytes b text, EndsLine b → b ∉ bytes → decode bytes = some text → Char.ofNat b.toNat ∉ text

/-- The code point of a character made from one. -/
theorem toNat_charOfNat {n : Nat} (h : n.isValidChar) : (Char.ofNat n).toNat = n := by
  rw [Char.ofNat, dif_pos h]
  rfl

theorem lineDecoder_latin1 : LineDecoder fun bytes => some (decodeLatin1 bytes) where
  nil := rfl
  empty bytes h := List.map_eq_nil_iff.mp (Option.some.inj h)
  split before b after text _ h := by
    refine ⟨_, _, rfl, rfl, ?_⟩
    rw [← Option.some.inj h, decodeLatin1, List.map_append]
    rfl
  free bytes b text hb hmem h := by
    obtain rfl := Option.some.inj h
    intro hchar
    obtain ⟨x, hx, heq⟩ := List.mem_map.mp hchar
    have hlt := x.toNat_lt
    have hlt' := b.toNat_lt
    have hxchar : (Char.ofNat x.toNat).toNat = x.toNat := toNat_charOfNat (.inl (by omega))
    have hbchar : (Char.ofNat b.toNat).toNat = b.toNat := toNat_charOfNat (.inl (by omega))
    have hnat : x.toNat = b.toNat := by rw [← hxchar, heq, hbchar]
    rw [UInt8.toNat_inj.mp hnat] at hx
    exact hmem hx

theorem consChar_some {c : Option Char} {s : Option (List Char)} {text : List Char}
    (h : consChar c s = some text) : ∃ x t, c = some x ∧ s = some t ∧ text = x :: t := by
  cases c with
  | none => cases h
  | some x =>
    cases s with
    | none => cases h
    | some t => exact ⟨x, t, rfl, rfl, (Option.some.inj h).symm⟩

theorem toNat_of_codePoint? {n : Nat} {c : Char} (h : codePoint? none n = some c) : c.toNat = n := by
  unfold codePoint? at h
  split_ifs at h with hn
  obtain rfl := Option.some.inj h
  refine toNat_charOfNat ?_
  rcases hn with hn | ⟨hge, hlt⟩
  · exact .inl hn
  · exact .inr ⟨by omega, hlt⟩

theorem utf8Decode_split {before after : Bytes} {b : UInt8} (hb : EndsLine b) {need least value : Nat}
    {text : List Char} (h : utf8Decode none need least value (before ++ b :: after) = some text) :
    ∃ s s', utf8Decode none need least value before = some s ∧ utf8Decode none 0 0 0 after = some s' ∧
      text = s ++ Char.ofNat b.toNat :: s' := by
  have hlt : b.toNat < 0x80 := by
    rcases hb with rfl | rfl <;> decide
  induction before generalizing need least value text with
  | nil =>
    rw [List.nil_append] at h
    cases need with
    | zero =>
      rw [utf8Decode, if_pos hlt] at h
      obtain ⟨x, t, hx, ht, rfl⟩ := consChar_some h
      have hchar : codePoint? none b.toNat = some (Char.ofNat b.toNat) := by
        rw [codePoint?, if_pos (.inl (by omega))]
      obtain rfl := Option.some.inj (hchar.symm.trans hx)
      exact ⟨[], t, rfl, ht, rfl⟩
    | succ need =>
      have hrange : ¬ (0x80 ≤ b.toNat ∧ b.toNat < 0xC0) := by omega
      rw [utf8Decode, if_neg hrange] at h
      cases h
  | cons x before ih =>
    rw [List.cons_append] at h
    have hcons : ∀ {c : Option Char},
        consChar c (utf8Decode none 0 0 0 (before ++ b :: after)) = some text →
        ∃ s s', consChar c (utf8Decode none 0 0 0 before) = some s ∧ utf8Decode none 0 0 0 after = some s' ∧
          text = s ++ Char.ofNat b.toNat :: s' := by
      intro c hc
      obtain ⟨y, t, rfl, ht, rfl⟩ := consChar_some hc
      obtain ⟨s, s', hs, hs', rfl⟩ := ih ht
      exact ⟨y :: s, s', by rw [hs]; rfl, hs', rfl⟩
    cases need with
    | zero =>
      simp only [utf8Decode] at h ⊢
      split_ifs at h ⊢
      · exact hcons h
      · exact ih h
      · exact ih h
      · exact ih h
    | succ need =>
      simp only [utf8Decode] at h ⊢
      split_ifs at h ⊢
      · exact hcons h
      · exact ih h

theorem utf8Decode_free {bytes : Bytes} {b : UInt8} (hb : EndsLine b) {need least value : Nat}
    {text : List Char} (hleast : need ≠ 0 → 0x80 ≤ least) (hmem : b ∉ bytes)
    (h : utf8Decode none need least value bytes = some text) : Char.ofNat b.toNat ∉ text := by
  have hlt : b.toNat < 0x80 := by
    rcases hb with rfl | rfl <;> decide
  have hchar : (Char.ofNat b.toNat).toNat = b.toNat := toNat_charOfNat (.inl (by omega))
  induction bytes generalizing need least value text with
  | nil =>
    cases need with
    | zero =>
      obtain rfl := Option.some.inj h
      exact List.not_mem_nil
    | succ need => cases h
  | cons x bytes ih =>
    have hx : b ≠ x := fun heq => hmem (heq ▸ List.mem_cons_self ..)
    have hbytes : b ∉ bytes := fun hmem' => hmem (List.mem_cons_of_mem _ hmem')
    have hcons : ∀ {n : Nat}, n ≠ b.toNat →
        consChar (codePoint? none n) (utf8Decode none 0 0 0 bytes) = some text →
        Char.ofNat b.toNat ∉ text := by
      intro n hn hc
      obtain ⟨y, t, hy, ht, rfl⟩ := consChar_some hc
      intro hmem'
      rcases List.mem_cons.mp hmem' with heq | hmem'
      · exact hn (by rw [← toNat_of_codePoint? hy, ← heq, hchar])
      · exact ih (fun hne => absurd rfl hne) hbytes ht hmem'
    cases need with
    | zero =>
      simp only [utf8Decode] at h
      split_ifs at h
      · exact hcons (fun heq => hx (UInt8.toNat_inj.mp heq).symm) h
      · exact ih (fun _ => by omega) hbytes h
      · exact ih (fun _ => by omega) hbytes h
      · exact ih (fun _ => by omega) hbytes h
    | succ need =>
      have hleast := hleast (Nat.succ_ne_zero need)
      simp only [utf8Decode] at h
      split_ifs at h
      · exact hcons (by omega) h
      · exact ih (fun _ => hleast) hbytes h

theorem utf8Decode_empty {bytes : Bytes} {need least value : Nat}
    (h : utf8Decode none need least value bytes = some []) : bytes = [] := by
  induction bytes generalizing need least value with
  | nil => rfl
  | cons x bytes ih =>
    have hcons : ∀ {c : Option Char}, consChar c (utf8Decode none 0 0 0 bytes) ≠ some [] := by
      intro c hc
      obtain ⟨y, t, _, _, heq⟩ := consChar_some hc
      cases heq
    have hrest : ∀ {need least value : Nat},
        utf8Decode none (need + 1) least value bytes ≠ some [] := by
      intro need least value hc
      rw [ih hc] at hc
      cases hc
    cases need with
    | zero =>
      simp only [utf8Decode] at h
      split_ifs at h
      · exact absurd h hcons
      · exact absurd h hrest
      · exact absurd h hrest
      · exact absurd h hrest
    | succ need =>
      simp only [utf8Decode] at h
      split_ifs at h with hrange hneed
      · exact absurd h hcons
      · obtain ⟨k, rfl⟩ := Nat.exists_eq_succ_of_ne_zero hneed
        exact absurd h hrest

theorem lineDecoder_utf8 : LineDecoder decodeUtf8 where
  nil := rfl
  empty _ := utf8Decode_empty
  split _ _ _ _ hb h := utf8Decode_split hb h
  free _ _ _ hb hmem h := utf8Decode_free hb (fun hne => absurd rfl hne) hmem h

/-! ## Lines of a decoded text -/

theorem isNewline_iff (c : Char) : Csv.isNewline c = true ↔ c = '\n' ∨ c = '\r' := by
  rw [Csv.isNewline, Bool.or_eq_true, beq_iff_eq, beq_iff_eq]

section LineDecoder

variable {decode : Bytes → Option (List Char)} (D : LineDecoder decode)
include D

/-- Bytes that end no line make a text without line breaks. -/
theorem LineDecoder.newline_free {bytes : Bytes} {text : List Char} (hbytes : ∀ b ∈ bytes, ¬ EndsLine b)
    (h : decode bytes = some text) : ∀ c ∈ text, Csv.isNewline c = false := by
  intro c hc
  have h10 := D.free bytes 10 text (.inl rfl) (fun hmem => hbytes 10 hmem (.inl rfl)) h
  have h13 := D.free bytes 13 text (.inr rfl) (fun hmem => hbytes 13 hmem (.inr rfl)) h
  rw [← Bool.not_eq_true, isNewline_iff]
  rintro (rfl | rfl)
  · exact h10 hc
  · exact h13 hc

theorem LineDecoder.text_of_newline_free {bytes : Bytes} {text : List Char}
    (hbytes : ∀ b ∈ bytes, ¬ EndsLine b) (h : decode bytes = some text)
    (htext : ∀ c ∈ text, Csv.isNewline c = true) : text = [] ∧ bytes = [] := by
  have hfree := D.newline_free hbytes h
  have hnil : text = [] := by
    rw [List.eq_nil_iff_forall_not_mem]
    intro c hc
    have hfalse := hfree c hc
    rw [htext c hc] at hfalse
    cases hfalse
  exact ⟨hnil, D.empty bytes (hnil ▸ h)⟩

/-- Without a line feed, a text of line breaks is one of carriage returns. -/
theorem LineDecoder.returns_of_newlines {bytes : Bytes} (h10 : 10 ∉ bytes) {text : List Char}
    (h : decode bytes = some text) (htext : ∀ c ∈ text, Csv.isNewline c = true) :
    ∃ j, bytes = List.replicate j 13 := by
  induction hn : bytes.length generalizing bytes text with
  | zero => exact ⟨0, List.length_eq_zero_iff.mp hn⟩
  | succ n ih =>
    by_cases h13 : 13 ∈ bytes
    · obtain ⟨before, after, rfl, hbefore⟩ := List.eq_append_cons_of_mem h13
      obtain ⟨s, s', hs, hs', rfl⟩ := D.split before 13 after text (.inr rfl) h
      have hfree : ∀ b ∈ before, ¬ EndsLine b := by
        rintro b hb (rfl | rfl)
        · exact h10 (List.mem_append_left _ hb)
        · exact hbefore hb
      obtain ⟨-, rfl⟩ := D.text_of_newline_free hfree hs fun c hc => htext c (List.mem_append_left _ hc)
      have h10' : 10 ∉ after := fun hmem => h10 (List.mem_cons_of_mem _ hmem)
      have hlen : after.length = n := by
        rw [List.nil_append, List.length_cons] at hn
        omega
      obtain ⟨j, rfl⟩ := ih h10' hs'
        (fun c hc => htext c (List.mem_append_right _ (List.mem_cons_of_mem _ hc))) hlen
      exact ⟨j + 1, rfl⟩
    · have hfree : ∀ b ∈ bytes, ¬ EndsLine b := by
        rintro b hb (rfl | rfl)
        · exact h10 hb
        · exact h13 hb
      obtain ⟨-, rfl⟩ := D.text_of_newline_free hfree h htext
      exact ⟨0, rfl⟩

/-- The bytes of a line of which only carriage returns come after the first line break. -/
theorem LineDecoder.bytes_of_shaped {bytes : Bytes} (h10 : 10 ∉ bytes) {text : List Char}
    (h : decode bytes = some text) (hshaped : Csv.Shaped text) :
    ∃ bs j, bytes = bs ++ List.replicate j 13 ∧ decode bs = some (Csv.core text) ∧
      ∀ b ∈ bs, ¬ EndsLine b := by
  by_cases h13 : 13 ∈ bytes
  · obtain ⟨before, after, rfl, hbefore⟩ := List.eq_append_cons_of_mem h13
    obtain ⟨s, s', hs, hs', rfl⟩ := D.split before 13 after text (.inr rfl) h
    have hfree : ∀ b ∈ before, ¬ EndsLine b := by
      rintro b hb (rfl | rfl)
      · exact h10 (List.mem_append_left _ hb)
      · exact hbefore hb
    have hsfree : ∀ c ∈ s, (!Csv.isNewline c) = true := by
      intro c hc
      rw [D.newline_free hfree hs c hc]
      rfl
    have hcore : Csv.core (s ++ '\r' :: s') = s := by
      rw [Csv.core, List.takeWhile_append_of_pos hsfree]
      exact List.append_nil s
    have hdrop : (s ++ '\r' :: s').dropWhile (fun c => !Csv.isNewline c) = '\r' :: s' := by
      rw [List.dropWhile_append_of_pos hsfree]
      rfl
    have hreturns : ∀ c ∈ s', Csv.isNewline c = true := by
      intro c hc
      refine hshaped c ?_
      show c ∈ (s ++ '\r' :: s').dropWhile fun c => !Csv.isNewline c
      rw [hdrop]
      exact List.mem_cons_of_mem _ hc
    have h10' : 10 ∉ after := fun hmem => h10 (List.mem_append_right _ (List.mem_cons_of_mem _ hmem))
    obtain ⟨j, rfl⟩ := D.returns_of_newlines h10' hs' hreturns
    refine ⟨before, j + 1, rfl, ?_, hfree⟩
    show decode before = some (Csv.core (s ++ '\r' :: s'))
    rw [hcore, hs]
  · have hfree : ∀ b ∈ bytes, ¬ EndsLine b := by
      rintro b hb (rfl | rfl)
      · exact h10 hb
      · exact h13 hb
    have hcore := Csv.core_of_free (D.newline_free hfree h)
    exact ⟨bytes, 0, (List.append_nil bytes).symm, by rw [hcore, h], hfree⟩

end LineDecoder

/-- A line feed at the end of a line changes neither its shape nor its core. -/
theorem shaped_of_lineFeed {text : List Char} (h : Csv.Shaped (text ++ ['\n'])) : Csv.Shaped text := by
  intro c hc
  refine h c ?_
  rw [List.dropWhile_append]
  split
  · rename_i hempty
    rw [List.isEmpty_iff.mp hempty] at hc
    cases hc
  · exact List.mem_append_left _ hc

theorem core_lineFeed (text : List Char) : Csv.core (text ++ ['\n']) = Csv.core text := by
  induction text with
  | nil => rfl
  | cons c cs ih =>
    unfold Csv.core at ih ⊢
    rw [List.cons_append, List.takeWhile_cons, List.takeWhile_cons, ih]

end Python
