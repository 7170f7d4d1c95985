import IntraCloud.Python.Codecs
import IntraCloud.Python.Proofs.JsonProofs
import Mathlib.Algebra.Group.Nat.Defs

/-!
# Decoders invert encoders

UTF-8, hexadecimal text, big-endian integers, and `json.loads` of the bytes of what `json.dumps` writes.
-/

namespace Python

/-! ## UTF-8 -/

theorem toNat_ofNat_of_lt {n : Nat} (h : n < 256) : (UInt8.ofNat n).toNat = n :=
  UInt8.toNat_ofNat_of_lt' h

theorem codePoint?_toNat (lone : Option Char) (c : Char) : codePoint? lone c.toNat = some c := by
  rw [codePoint?, if_pos (Json.char_range c), Char.ofNat_toNat]

theorem utf8Decode_ascii (lone : Option Char) {n : Nat} (bytes : Bytes) (h : n < 0x80) :
    utf8Decode lone 0 0 0 (UInt8.ofNat n :: bytes) =
      consChar (codePoint? lone n) (utf8Decode lone 0 0 0 bytes) := by
  have hn := toNat_ofNat_of_lt (show n < 256 by omega)
  simp only [utf8Decode, hn, if_pos h]

/-- A byte of a character after which more are to come. -/
theorem utf8Decode_next (lone : Option Char) (need least value n : Nat) (bytes : Bytes) :
    utf8Decode lone (need + 2) least value (UInt8.ofNat (n % 0x40 + 0x80) :: bytes) =
      utf8Decode lone (need + 1) least (64 * value + n % 0x40) bytes := by
  have hn := toNat_ofNat_of_lt (show n % 0x40 + 0x80 < 256 by omega)
  have hrange : 0x80 ≤ n % 0x40 + 0x80 ∧ n % 0x40 + 0x80 < 0xC0 := by omega
  have hneed : ¬ need + 1 = 0 := by omega
  rw [utf8Decode]
  simp only [hn, if_pos hrange, if_neg hneed, Nat.add_sub_cancel]

/-- The last byte of a character. -/
theorem utf8Decode_last (lone : Option Char) (c : Char) {least value n : Nat} (bytes : Bytes)
    (hvalue : 64 * value + n % 0x40 = c.toNat) (hleast : least ≤ c.toNat) :
    utf8Decode lone 1 least value (UInt8.ofNat (n % 0x40 + 0x80) :: bytes) =
      consChar (some c) (utf8Decode lone 0 0 0 bytes) := by
  have hn := toNat_ofNat_of_lt (show n % 0x40 + 0x80 < 256 by omega)
  have hrange : 0x80 ≤ n % 0x40 + 0x80 ∧ n % 0x40 + 0x80 < 0xC0 := by omega
  rw [utf8Decode]
  simp only [hn, if_pos hrange, if_true, Nat.add_sub_cancel, hvalue, if_pos hleast, codePoint?_toNat]

theorem utf8Decode_char (lone : Option Char) (c : Char) (bytes : Bytes) :
    utf8Decode lone 0 0 0 (String.utf8EncodeChar c ++ bytes) =
      consChar (some c) (utf8Decode lone 0 0 0 bytes) := by
  have hrange := Json.char_range c
  have hval : c.val.toNat = c.toNat := rfl
  unfold String.utf8EncodeChar
  simp only [hval]
  split_ifs with h1 h2 h3
  · rw [List.singleton_append, utf8Decode_ascii lone bytes (by omega), codePoint?_toNat]
  · have hlead := toNat_ofNat_of_lt (show c.toNat / 64 % 0x20 + 0xc0 < 256 by omega)
    simp only [List.cons_append, List.nil_append]
    rw [utf8Decode]
    simp only [hlead]
    rw [if_neg (by omega), if_neg (by omega), if_pos (by omega),
      utf8Decode_last lone c bytes (by omega) (by omega)]
  · have hlead := toNat_ofNat_of_lt (show c.toNat / 4096 % 0x10 + 0xe0 < 256 by omega)
    simp only [List.cons_append, List.nil_append]
    rw [utf8Decode]
    simp only [hlead]
    rw [if_neg (by omega), if_neg (by omega), if_neg (by omega), if_pos (by omega), utf8Decode_next,
      utf8Decode_last lone c bytes (by omega) (by omega)]
  · have hlead := toNat_ofNat_of_lt (show c.toNat / 262144 % 0x08 + 0xf0 < 256 by omega)
    simp only [List.cons_append, List.nil_append]
    rw [utf8Decode]
    simp only [hlead]
    rw [if_neg (by omega), if_neg (by omega), if_neg (by omega), if_neg (by omega), if_pos (by omega),
      utf8Decode_next, utf8Decode_next, utf8Decode_last lone c bytes (by omega) (by omega)]

theorem utf8Decode_utf8Encode (lone : Option Char) (s : List Char) :
    utf8Decode lone 0 0 0 (utf8Encode s) = some s := by
  induction s with
  | nil => rfl
  | cons c s ih =>
    rw [utf8Encode, List.flatMap_cons, utf8Decode_char]
    rw [utf8Encode] at ih
    rw [ih]
    rfl

/-- `decode` gives back what `encode` was given. -/
theorem decodeUtf8_utf8Encode (s : List Char) : decodeUtf8 (utf8Encode s) = some s :=
  utf8Decode_utf8Encode none s

/-! ## JSON -/

theorem utf8EncodeChar_of_plain {c : Char} (h : Json.Plain c) :
    ∃ b : UInt8, String.utf8EncodeChar c = [b] ∧ 0 < b.toNat ∧ b.toNat < 0x80 := by
  have hrange : 10 ≤ c.toNat ∧ c.toNat ≤ 126 := by
    rcases h with rfl | ⟨hlow, hhigh⟩
    · decide
    · have hlow : 32 ≤ c.toNat := hlow
      exact ⟨by omega, hhigh⟩
  have hval : c.val.toNat = c.toNat := rfl
  have hn := toNat_ofNat_of_lt (show c.toNat < 256 by omega)
  refine ⟨UInt8.ofNat c.toNat, ?_, by omega, by omega⟩
  unfold String.utf8EncodeChar
  simp only [hval]
  rw [if_pos (by omega)]

theorem bytes_of_plain {s : List Char} (h : ∀ c ∈ s, Json.Plain c) :
    ∀ b ∈ utf8Encode s, 0 < b.toNat ∧ b.toNat < 0x80 := by
  intro b hb
  obtain ⟨c, hc, hb⟩ := List.mem_flatMap.mp hb
  obtain ⟨b', heq, hb'⟩ := utf8EncodeChar_of_plain (h c hc)
  rw [heq, List.mem_singleton] at hb
  exact hb ▸ hb'

/-- Bytes of ASCII characters but NUL have no byte order mark and are UTF-8. -/
theorem detectEncoding_of_ascii {b : Bytes} (h : ∀ x ∈ b, 0 < x.toNat ∧ x.toNat < 0x80) :
    detectEncoding b = (.utf8, b) := by
  have hne : ∀ x ∈ b, x ≠ 0 ∧ x.toNat < 0x80 := by
    intro x hx
    refine ⟨?_, (h x hx).2⟩
    rintro rfl
    exact absurd (h 0 hx).1 (by decide)
  have hmark : ∀ n m : Nat, ∀ mark : Bytes, (∃ x ∈ mark, x = 0 ∨ 0x80 ≤ x.toNat) →
      b.take n ≠ mark := by
    rintro n m mark ⟨x, hx, hbad⟩ heq
    have hmem := List.mem_of_mem_take (heq ▸ hx)
    rcases hbad with rfl | hbad
    · exact (hne 0 hmem).1 rfl
    · exact absurd hbad (Nat.not_le_of_lt (hne x hmem).2)
  unfold detectEncoding
  rw [if_neg (hmark 4 0 _ (by decide)), if_neg (hmark 4 0 _ (by decide)),
    if_neg (hmark 2 0 _ (by decide)), if_neg (hmark 2 0 _ (by decide)),
    if_neg (hmark 3 0 _ (by decide))]
  split
  · rename_i b0 b1 b2 b3 bytes
    have h0 := (hne b0 (by simp)).1
    have h1 := (hne b1 (by simp)).1
    rw [if_neg h0, if_neg h1]
  · rename_i b0 b1
    have h0 := (hne b0 (by simp)).1
    have h1 := (hne b1 (by simp)).1
    rw [if_neg h0, if_neg h1]
  · rfl

/-- `json.loads` of the bytes of what `json.dumps` writes. -/
theorem loadBytes_text (indent : Option Nat) {v : PyJson} (h : Json.Writable v) :
    Json.loadBytes (utf8Encode (Json.text indent 0 v)) = some v := by
  have hascii := bytes_of_plain (Json.plain_text indent v 0 h)
  rw [Json.loadBytes, decodeJson, detectEncoding_of_ascii hascii]
  simp only [utf8Decode_utf8Encode, Option.bind_some]
  exact Json.loadsWith_text _ indent h

/-! ## Hexadecimal -/

theorem hexOfBytes_cons (x : UInt8) (b : Bytes) :
    hexOfBytes (x :: b) = hexDigit (x.toNat / 16) :: hexDigit x.toNat :: hexOfBytes b := rfl

theorem isAsciiSpace_hexDigit (n : Nat) : isAsciiSpace (hexDigit n) = false := by
  have h : ∀ d : Fin 16, isAsciiSpace ("0123456789abcdef".toList.getD d.val '0') = false := by decide
  exact h ⟨n % 16, Nat.mod_lt _ (by omega)⟩

/-- `bytes.fromhex` gives back what `bytes.hex` was given. -/
theorem fromHex_hexOfBytes (b : Bytes) : fromHex (hexOfBytes b) = some b := by
  induction b with
  | nil => rfl
  | cons x b ih =>
    have hbyte : UInt8.ofNat (16 * (x.toNat / 16 % 16) + x.toNat % 16) = x := by
      have hlt := x.toNat_lt
      have hnat : 16 * (x.toNat / 16 % 16) + x.toNat % 16 = x.toNat := by omega
      rw [hnat, UInt8.ofNat_toNat]
    rw [hexOfBytes_cons, fromHex, isAsciiSpace_hexDigit, if_neg Bool.false_ne_true, Json.hexValue?_hexDigit,
      Json.hexValue?_hexDigit, ih]
    simp only [hbyte]

theorem length_hexOfBytes (b : Bytes) : (hexOfBytes b).length = 2 * b.length := by
  induction b with
  | nil => rfl
  | cons x b ih =>
    rw [hexOfBytes_cons, List.length_cons, List.length_cons, List.length_cons, ih]
    omega

/-! ## Integers -/

theorem fromBytes_concat (b : Bytes) (x : UInt8) : fromBytes (b ++ [x]) = 256 * fromBytes b + x.toNat := by
  rw [fromBytes, List.foldl_append]
  rfl

/-- `from_bytes` gives back what `to_bytes` was given, and the width is as asked for. -/
theorem fromBytes_of_toBytes? {width n : Nat} {b : Bytes} (h : toBytes? width n = some b) :
    fromBytes b = n ∧ b.length = width := by
  induction width generalizing n b with
  | zero =>
    rw [toBytes?] at h
    split_ifs at h with hn
    rw [← Option.some.inj h]
    exact ⟨hn.symm, rfl⟩
  | succ width ih =>
    rw [toBytes?] at h
    obtain ⟨high, hhigh, rfl⟩ := Option.map_eq_some_iff.mp h
    obtain ⟨hval, hlen⟩ := ih hhigh
    have hlow := toNat_ofNat_of_lt (show n % 256 < 256 by omega)
    refine ⟨?_, ?_⟩
    · rw [fromBytes_concat, hval, hlow]
      omega
    · rw [List.length_append, hlen, List.length_singleton]

theorem toBytes?_of_lt {width n : Nat} (h : n < 256 ^ width) : ∃ b, toBytes? width n = some b := by
  induction width generalizing n with
  | zero =>
    have hn : n = 0 := by
      rw [Nat.pow_zero] at h
      omega
    exact ⟨[], if_pos hn⟩
  | succ width ih =>
    have hhigh : n / 256 < 256 ^ width := by
      rw [Nat.pow_succ] at h
      exact Nat.div_lt_of_lt_mul (by rwa [Nat.mul_comm])
    obtain ⟨b, hb⟩ := ih hhigh
    exact ⟨_, by rw [toBytes?, hb]; rfl⟩

end Python
