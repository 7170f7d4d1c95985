import IntraCloud.Exports.Container
import IntraCloud.Python.Proofs.CodecsProofs

/-!
# What a container protects

Reading a container gives back what was written, and a wrong passphrase opens nothing. Changing an
encrypted container can make it give other bytes in one way only: its header has to say that it is not
encrypted.
-/

namespace Exports

open Python

variable {Key : Type} {p : Primitives Key} {r : Randomness}

/-! ## The length of the header -/

theorem length_escapeChar_le (c : Char) : (Json.escapeChar c).length ≤ 12 := by
  unfold Json.escapeChar
  split_ifs
  all_goals simp only [Json.unitText, List.length_cons, List.length_append, length_hexText,
    List.length_nil]
  all_goals omega

theorem length_stringText_le (s : List Char) : (Json.stringText s).length ≤ 12 * s.length + 2 := by
  have hbody : (s.flatMap Json.escapeChar).length ≤ 12 * s.length := by
    induction s with
    | nil => exact Nat.le_refl _
    | cons c s ih =>
      have hc := length_escapeChar_le c
      rw [List.flatMap_cons, List.length_append, List.length_cons]
      omega
  rw [Json.stringText, List.length_append, List.length_cons, List.length_singleton]
  omega

theorem length_utf8Encode_le (s : List Char) : (utf8Encode s).length ≤ 4 * s.length := by
  induction s with
  | nil => exact Nat.le_refl _
  | cons c s ih =>
    have hc : (String.utf8EncodeChar c).length ≤ 4 := by
      unfold String.utf8EncodeChar
      simp only []
      split_ifs
      all_goals simp only [List.length_cons, List.length_nil]
      all_goals omega
    rw [utf8Encode] at ih ⊢
    rw [List.flatMap_cons, List.length_append, List.length_cons]
    omega

/-- The encryption parameters `write_container` puts into a header. -/
def WrittenMeta (r : Randomness) (encryption : PyJson) : Prop :=
  encryption = .null ∨ encryption = encryptionMeta r

/-- The texts of a header but salt and nonce. -/
theorem length_headerTexts :
    (Json.stringText "algorithm".toList).length = 11 ∧ (Json.stringText "AES-256-GCM".toList).length = 13 ∧
    (Json.stringText "kdf".toList).length = 5 ∧ (Json.stringText "argon2id".toList).length = 10 ∧
    (Json.stringText "kdf_params".toList).length = 12 ∧ (Json.stringText "time_cost".toList).length = 11 ∧
    (Json.stringText "memory_cost_kib".toList).length = 17 ∧
    (Json.stringText "parallelism".toList).length = 13 ∧ (Json.stringText "salt".toList).length = 6 ∧
    (Json.stringText "nonce".toList).length = 7 ∧ (intText ARGON2_TIME_COST).length = 1 ∧
    (intText ARGON2_MEMORY_COST_KIB).length = 6 ∧ (intText ARGON2_PARALLELISM).length = 1 := by
  decide

theorem length_text_meta (r : Randomness) : (Json.text none 1 (encryptionMeta r)).length ≤ 1000 := by
  have hsalt := length_stringText_le (hexOfBytes r.salt)
  have hnonce := length_stringText_le (hexOfBytes r.nonce)
  rw [length_hexOfBytes, r.salt_length, ARGON2_SALT_BYTES] at hsalt
  rw [length_hexOfBytes, r.nonce_length, AES_NONCE_BYTES] at hnonce
  have htexts := length_headerTexts
  simp only [encryptionMeta, Json.text, Json.membersText, Json.separator, Json.newline,
    List.length_cons, List.length_append, List.length_nil]
  omega

theorem length_header_lt {encryption : PyJson} (h : WrittenMeta r encryption) :
    (utf8Encode (Json.dumps (headerValue encryption))).length < 256 ^ 4 := by
  have hmeta : (Json.text none 1 encryption).length ≤ 1000 := by
    rcases h with rfl | rfl
    · decide
    · exact length_text_meta r
  have hformat : (Json.stringText "format".toList).length = 8 := by decide
  have hname : (Json.stringText "intracloud-portable-container".toList).length = 31 := by decide
  have hencryption : (Json.stringText "encryption".toList).length = 12 := by decide
  have hbytes := length_utf8Encode_le (Json.dumps (headerValue encryption))
  have htext : (Json.dumps (headerValue encryption)).length ≤ 2000 := by
    simp only [Json.dumps, headerValue, Json.text, Json.membersText, Json.separator, Json.newline,
      List.length_cons, List.length_append, List.length_nil, Nat.zero_add]
    omega
  omega

/-! ## The frame -/

theorem writable_encryptionMeta (r : Randomness) : Json.Writable (encryptionMeta r) := by
  have hkeys : ["algorithm".toList, "kdf".toList, "kdf_params".toList, "salt".toList,
      "nonce".toList].Nodup := by decide
  have hparams : ["time_cost".toList, "memory_cost_kib".toList, "parallelism".toList].Nodup := by decide
  have htime : (natText ARGON2_TIME_COST.natAbs).length ≤ maxStrDigits := by decide
  have hmemory : (natText ARGON2_MEMORY_COST_KIB.natAbs).length ≤ maxStrDigits := by decide
  have hparallelism : (natText ARGON2_PARALLELISM.natAbs).length ≤ maxStrDigits := by decide
  exact ⟨hkeys, trivial, trivial, ⟨hparams, htime, hmemory, hparallelism, trivial⟩, trivial, trivial,
    trivial⟩

theorem writable_headerValue {encryption : PyJson} (h : WrittenMeta r encryption) :
    Json.Writable (headerValue encryption) := by
  have hkeys : ["format".toList, "encryption".toList].Nodup := by decide
  have hmeta : Json.Writable encryption := by
    rcases h with rfl | rfl
    · trivial
    · exact writable_encryptionMeta r
  exact ⟨hkeys, trivial, hmeta, trivial⟩

theorem frame_isSome {encryption : PyJson} (payload : Bytes) (h : WrittenMeta r encryption) :
    ∃ data, frame encryption payload = some data := by
  obtain ⟨length, hlength⟩ := toBytes?_of_lt (length_header_lt h)
  exact ⟨_, by rw [frame, hlength]; rfl⟩

/-- A frame is read as it was put together. -/
theorem read_frame {encryption : PyJson} {payload data : Bytes} (h : WrittenMeta r encryption)
    (hframe : frame encryption payload = some data) :
    readContainerHeader data = .ok (headerValue encryption) ∧ payloadOf data = payload := by
  obtain ⟨length, hlength, rfl⟩ := Option.map_eq_some_iff.mp hframe
  obtain ⟨hvalue, hwidth⟩ := fromBytes_of_toBytes? hlength
  have hmagic : MAGIC.length = 8 := rfl
  have hload : Json.loadBytes (utf8Encode (Json.dumps (headerValue encryption))) =
      some (headerValue encryption) := loadBytes_text none (writable_headerValue h)
  generalize utf8Encode (Json.dumps (headerValue encryption)) = header at hvalue hload ⊢
  have hfront : (MAGIC ++ (length ++ (header ++ payload))).take 12 = MAGIC ++ length := by
    rw [← List.append_assoc, List.take_left']
    rw [List.length_append, hmagic, hwidth]
  have hback : (MAGIC ++ (length ++ (header ++ payload))).drop 12 = header ++ payload := by
    rw [← List.append_assoc, List.drop_left']
    rw [List.length_append, hmagic, hwidth]
  have hlen : headerLength (MAGIC ++ (length ++ (header ++ payload))) = header.length := by
    rw [headerLength, hfront, List.drop_left' hmagic, hvalue]
  refine ⟨?_, ?_⟩
  · rw [readContainerHeader, List.take_left' hmagic, if_neg (not_not_intro rfl), hlen, hback,
      List.take_left, hload]
  · rw [payloadOf, hlen, ← List.drop_drop, hback, List.drop_left]

/-! ## Reading what was written -/

/-- `kdf_params` of the parameters `write_container` puts into a header. -/
def writtenParams : PyJson :=
  .dict [
    ("time_cost".toList, .int ARGON2_TIME_COST),
    ("memory_cost_kib".toList, .int ARGON2_MEMORY_COST_KIB),
    ("parallelism".toList, .int ARGON2_PARALLELISM)]

theorem hexField_of_member {key : String} {members : List (List Char × PyJson)} {bytes : Bytes}
    (h : Json.member? key.toList members = some (.str (hexOfBytes bytes))) :
    hexField key members = .ok bytes := by
  unfold hexField
  rw [h]
  simp only [fromHex_hexOfBytes]

theorem readMetadata_of_members {members : List (List Char × PyJson)} {salt nonce : Bytes}
    {params : PyJson} (hsalt : Json.member? "salt".toList members = some (.str (hexOfBytes salt)))
    (hnonce : Json.member? "nonce".toList members = some (.str (hexOfBytes nonce)))
    (hparams : Json.member? "kdf_params".toList members = some params) :
    readMetadata (.dict members) = .ok (salt, nonce, params) := by
  unfold readMetadata
  simp only [hexField_of_member hsalt, hexField_of_member hnonce, hparams]
  rfl

theorem readMetadata_encryptionMeta (r : Randomness) :
    readMetadata (encryptionMeta r) = .ok (r.salt, r.nonce, writtenParams) :=
  readMetadata_of_members rfl rfl rfl

theorem headerKey_writtenParams (p : Primitives Key) (passphrase : List Char) (salt : Bytes) :
    headerKey p passphrase salt writtenParams = deriveKey p passphrase salt := rfl

/-- Whatever the passphrase, an unencrypted container holds its payload. -/
theorem read_unencrypted {zipBytes data : Bytes} (hframe : frame .null zipBytes = some data)
    (passphrase : Option (List Char)) : readContainerPayload p data passphrase = .ok zipBytes := by
  -- no salt or nonce is in the header, so any will do
  have hmeta : WrittenMeta ⟨List.replicate 16 0, List.replicate 12 0, rfl, rfl⟩ .null := .inl rfl
  obtain ⟨hheader, hpayload⟩ := read_frame hmeta hframe
  unfold readContainerPayload
  rw [hheader, hpayload]
  rfl

/-- An encrypted container is read with the key that its salt and the passphrase give. -/
theorem read_encrypted {ciphertext data : Bytes} (hframe : frame (encryptionMeta r) ciphertext = some data)
    {secret : List Char} {key : Key} (hkey : deriveKey p secret r.salt = some key) :
    readContainerPayload p data (some secret) = decryptPayload p key r.nonce ciphertext := by
  obtain ⟨hheader, hpayload⟩ := read_frame (.inr rfl) hframe
  have hencryption : encryptionOf [("format".toList, .str "intracloud-portable-container".toList),
      ("encryption".toList, encryptionMeta r)] = some (encryptionMeta r) := rfl
  have hmetadata := readMetadata_encryptionMeta r
  unfold readContainerPayload
  rw [hheader, hpayload]
  simp only [headerValue, bind, Except.bind, hencryption, readEncrypted, hmetadata,
    headerKey_writtenParams, hkey]

theorem read_without_passphrase {ciphertext data : Bytes}
    (hframe : frame (encryptionMeta r) ciphertext = some data) :
    readContainerPayload p data none =
      .error (.decryptionFailed "this package is encrypted; a passphrase is required") := by
  obtain ⟨hheader, -⟩ := read_frame (.inr rfl) hframe
  unfold readContainerPayload
  rw [hheader]
  rfl

theorem nonce_in_range (r : Randomness) : ¬ (r.nonce.length < 8 ∨ 128 < r.nonce.length) := by
  have hlen := r.nonce_length
  rw [AES_NONCE_BYTES] at hlen
  omega

/-- A passphrase that gives another key opens nothing. -/
theorem decryptPayload_wrong {isSealed : Key → Bytes → Bytes → Prop} {key : Key} {ciphertext : Bytes}
    (ideal : p.Ideal isSealed) (hkey : ∀ data, ¬ isSealed key r.nonce data) :
    decryptPayload p key r.nonce ciphertext =
      .error (.decryptionFailed "wrong passphrase, or the package is corrupted/tampered with") := by
  have hnone : p.decrypt key r.nonce ciphertext = none := by
    cases h : p.decrypt key r.nonce ciphertext with
    | none => rfl
    | some data => exact absurd (ideal.genuine _ _ _ _ h).1 (hkey data)
  rw [decryptPayload, if_neg (nonce_in_range r), hnone]

/-- Passphrases have different bytes. -/
theorem utf8Encode_injective {s t : List Char} (h : utf8Encode s = utf8Encode t) : s = t := by
  have hs := decodeUtf8_utf8Encode s
  rw [h, decodeUtf8_utf8Encode] at hs
  exact (Option.some.inj hs).symm

/-! ## The round trip -/

theorem writeContainer_none (p : Primitives Key) (r : Randomness) (zipBytes : Bytes) :
    ∃ data, writeContainer p r zipBytes none = some data ∧ frame .null zipBytes = some data := by
  have hmeta : WrittenMeta r .null := .inl rfl
  obtain ⟨data, hframe⟩ := frame_isSome zipBytes hmeta
  exact ⟨data, hframe, hframe⟩

theorem writeContainer_some {secret : List Char} {key : Key} (zipBytes : Bytes)
    (hkey : deriveKey p secret r.salt = some key) :
    ∃ data, writeContainer p r zipBytes (some secret) = some data ∧
      frame (encryptionMeta r) (p.encrypt key r.nonce zipBytes) = some data := by
  obtain ⟨data, hframe⟩ := frame_isSome (p.encrypt key r.nonce zipBytes) (.inr rfl : WrittenMeta r _)
  refine ⟨data, ?_, hframe⟩
  rw [writeContainer, hkey, Option.bind_some, hframe]

/-- Ideal primitives do. -/
theorem Primitives.Ideal.opens_written {zipBytes : Bytes} {passphrase : Option (List Char)}
    (ideal : p.Ideal (SealedBy p r zipBytes passphrase)) : p.Opens r zipBytes passphrase := by
  rintro secret rfl
  obtain ⟨key, hkey⟩ := ideal.derives (utf8Encode secret) r.salt r.salt_length
  exact ⟨key, hkey, ideal.opens key r.nonce zipBytes ⟨⟨secret, rfl, hkey⟩, rfl, rfl⟩⟩

theorem read_opens {secret : List Char} {key : Key} {zipBytes data : Bytes}
    (hframe : frame (encryptionMeta r) (p.encrypt key r.nonce zipBytes) = some data)
    (hkey : deriveKey p secret r.salt = some key)
    (hopens : p.decrypt key r.nonce (p.encrypt key r.nonce zipBytes) = some zipBytes) :
    readContainerPayload p data (some secret) = .ok zipBytes := by
  rw [read_encrypted hframe hkey, decryptPayload, if_neg (nonce_in_range r), hopens]

/-- A container is written of every payload, and its passphrase gives the payload back. -/
theorem read_written_of_opens {zipBytes : Bytes} {passphrase : Option (List Char)}
    (hopens : p.Opens r zipBytes passphrase) :
    ∃ data, writeContainer p r zipBytes passphrase = some data ∧
      readContainerPayload p data passphrase = .ok zipBytes := by
  cases passphrase with
  | none =>
    obtain ⟨data, hwrite, hframe⟩ := writeContainer_none p r zipBytes
    exact ⟨data, hwrite, read_unencrypted hframe none⟩
  | some secret =>
    obtain ⟨key, hkey, hdecrypt⟩ := hopens secret rfl
    obtain ⟨data, hwrite, hframe⟩ := writeContainer_some zipBytes hkey
    exact ⟨data, hwrite, read_opens hframe hkey hdecrypt⟩

/-- A container is written of every payload, and reading it gives the payload back to its passphrase, to
everybody where it has none, and otherwise to nobody else. -/
theorem read_written (p : Primitives Key) (r : Randomness) (zipBytes : Bytes)
    (passphrase : Option (List Char)) (ideal : p.Ideal (SealedBy p r zipBytes passphrase)) :
    ∃ data, writeContainer p r zipBytes passphrase = some data ∧
      readContainerPayload p data passphrase = .ok zipBytes ∧
      (passphrase = none → ∀ q, readContainerPayload p data q = .ok zipBytes) ∧
      (passphrase ≠ none → ∀ q, q ≠ passphrase →
        ∃ message, readContainerPayload p data q = .error (.decryptionFailed message)) := by
  cases passphrase with
  | none =>
    obtain ⟨data, hwrite, hframe⟩ := writeContainer_none p r zipBytes
    have hread := read_unencrypted (p := p) hframe
    exact ⟨data, hwrite, hread none, fun _ => hread, fun hne => absurd rfl hne⟩
  | some secret =>
    obtain ⟨key, hkey, hdecrypt⟩ := ideal.opens_written secret rfl
    obtain ⟨data, hwrite, hframe⟩ := writeContainer_some zipBytes hkey
    refine ⟨data, hwrite, read_opens hframe hkey hdecrypt, fun heq => absurd heq (Option.some_ne_none _), ?_⟩
    intro _ q hq
    cases q with
    | none => exact ⟨_, read_without_passphrase hframe⟩
    | some other =>
      obtain ⟨key', hkey'⟩ := ideal.derives (utf8Encode other) r.salt r.salt_length
      have hwrong : ∀ data, ¬ SealedBy p r zipBytes (some secret) key' r.nonce data := by
        rintro data ⟨⟨_, hsome, hsealed⟩, -⟩
        obtain rfl := Option.some.inj hsome
        have hbytes := ideal.separates _ _ _ _ hsealed hkey'
        exact hq (congrArg some (utf8Encode_injective hbytes).symm)
      exact ⟨_, (read_encrypted hframe hkey').trans (decryptPayload_wrong ideal hwrong)⟩

/-- An ideal cipher that has encrypted one payload: its key is the passphrase, its ciphertext the payload
and a tag. -/
def recordingCipher (r : Randomness) (zipBytes : Bytes) (secret : List Char) : Primitives Bytes where
  hashSecretRaw secret _ _ _ _ := some secret
  encrypt _ _ data := data ++ List.replicate 16 0
  decrypt key nonce data :=
    if key = utf8Encode secret ∧ nonce = r.nonce ∧ data = zipBytes ++ List.replicate 16 0 then some zipBytes
    else none

theorem ideal_recordingCipher (r : Randomness) (zipBytes : Bytes) (secret : List Char) :
    (recordingCipher r zipBytes secret).Ideal
      (SealedBy (recordingCipher r zipBytes secret) r zipBytes (some secret)) where
  derives secret' _ _ := ⟨secret', rfl⟩
  separates _ _ _ _ h h' := (Option.some.inj h).trans (Option.some.inj h').symm
  opens := by
    rintro key nonce data ⟨⟨secret', hsome, hkey⟩, rfl, rfl⟩
    obtain rfl := Option.some.inj hsome
    obtain rfl := Option.some.inj hkey
    exact if_pos ⟨rfl, rfl, rfl⟩
  genuine := by
    intro key nonce ciphertext data h
    by_cases hmatch : key = utf8Encode secret ∧ nonce = r.nonce ∧
        ciphertext = zipBytes ++ List.replicate 16 0
    · obtain rfl := Option.some.inj ((if_pos hmatch).symm.trans h)
      obtain ⟨rfl, rfl, rfl⟩ := hmatch
      exact ⟨⟨⟨secret, rfl, rfl⟩, rfl, rfl⟩, rfl⟩
    · exact absurd ((if_neg hmatch).symm.trans h) (Option.some_ne_none _).symm

/-- Draws of `os.urandom`. -/
def zeroDraws : Randomness := ⟨List.replicate 16 0, List.replicate 12 0, rfl, rfl⟩

theorem read_written_secret :
    ∃ data, writeContainer (recordingCipher zeroDraws [1, 2, 3] ['k']) zeroDraws [1, 2, 3] (some ['k']) =
        some data ∧
      readContainerPayload (recordingCipher zeroDraws [1, 2, 3] ['k']) data (some ['k']) = .ok [1, 2, 3] ∧
      ∃ message, readContainerPayload (recordingCipher zeroDraws [1, 2, 3] ['k']) data (some ['q']) =
        .error (.decryptionFailed message) := by
  obtain ⟨data, hwrite, hread, -, hwrong⟩ :=
    read_written (recordingCipher zeroDraws [1, 2, 3] ['k']) zeroDraws [1, 2, 3] (some ['k'])
      (ideal_recordingCipher _ _ _)
  exact ⟨data, hwrite, hread, hwrong (Option.some_ne_none _) (some ['q']) (by decide)⟩

/-! ## Integrity -/

theorem decrypt_of_readEncrypted {payload plain : Bytes} {encryption : PyJson} {secret : List Char}
    (h : readEncrypted p payload encryption (some secret) = .ok plain) :
    ∃ key nonce, p.decrypt key nonce payload = some plain := by
  unfold readEncrypted at h
  cases hmeta : readMetadata encryption with
  | error e =>
    rw [hmeta] at h
    cases h
  | ok metadata =>
    obtain ⟨salt, nonce, params⟩ := metadata
    rw [hmeta] at h
    cases hkey : headerKey p secret salt params with
    | none =>
      simp only [bind, Except.bind, hkey] at h
      cases h
    | some key =>
      simp only [bind, Except.bind, hkey, decryptPayload] at h
      split_ifs at h
      cases hplain : p.decrypt key nonce payload with
      | none =>
        rw [hplain] at h
        cases h
      | some data =>
        rw [hplain] at h
        exact ⟨key, nonce, hplain.trans (congrArg some (Except.ok.inj h))⟩

/-- Where reading gives bytes, they are the unencrypted payload or what a key decrypts. -/
theorem read_cases {data plain : Bytes} {secret : List Char}
    (h : readContainerPayload p data (some secret) = .ok plain) :
    (∃ members, readContainerHeader data = .ok (.dict members) ∧ encryptionOf members = none ∧
      plain = payloadOf data) ∨
    ∃ key nonce, p.decrypt key nonce (payloadOf data) = some plain := by
  unfold readContainerPayload at h
  cases hheader : readContainerHeader data with
  | error e =>
    rw [hheader] at h
    cases h
  | ok header =>
    rw [hheader] at h
    simp only [bind, Except.bind] at h
    cases header with
    | dict members =>
      cases hencryption : encryptionOf members with
      | none =>
        simp only [hencryption] at h
        exact .inl ⟨members, rfl, hencryption, (Except.ok.inj h).symm⟩
      | some encryption =>
        simp only [hencryption] at h
        exact .inr (decrypt_of_readEncrypted h)
    | _ => cases h

theorem read_of_stripped {data : Bytes} {members : List (List Char × PyJson)}
    (hheader : readContainerHeader data = .ok (.dict members)) (hnone : encryptionOf members = none)
    (passphrase : Option (List Char)) :
    readContainerPayload p data passphrase = .ok (payloadOf data) := by
  unfold readContainerPayload
  rw [hheader]
  simp only [bind, Except.bind, hnone]

/-- Changing an encrypted container makes it give other bytes exactly where its header now says that it
is not encrypted. -/
theorem readsOnly_iff_not_stripped (p : Primitives Key) (r : Randomness) (zipBytes : Bytes)
    (secret : List Char) (ideal : p.Ideal (SealedBy p r zipBytes (some secret))) :
    ∀ container, writeContainer p r zipBytes (some secret) = some container →
      ∀ modify : Bytes → Bytes,
        ReadsOnly p zipBytes secret (modify container) ↔ ¬ Stripped zipBytes (modify container) := by
  intro container _ modify
  constructor
  · rintro hreads ⟨members, hheader, hnone, hne⟩
    exact hne (hreads _ (read_of_stripped hheader hnone _))
  · intro hstripped plain hread
    rcases read_cases hread with ⟨members, hheader, hnone, rfl⟩ | ⟨key, nonce, hplain⟩
    · by_cases heq : payloadOf (modify container) = zipBytes
      · exact heq
      · exact absurd ⟨members, hheader, hnone, heq⟩ hstripped
    · exact (ideal.genuine _ _ _ _ hplain).1.2.2

theorem readsOnly_iff_not_stripped_trailing_byte :
    ∃ container, writeContainer (recordingCipher zeroDraws [1, 2, 3] ['k']) zeroDraws [1, 2, 3]
        (some ['k']) = some container ∧
      (ReadsOnly (recordingCipher zeroDraws [1, 2, 3] ['k']) [1, 2, 3] ['k'] (container ++ [0]) ↔
        ¬ Stripped [1, 2, 3] (container ++ [0])) := by
  have hideal := ideal_recordingCipher zeroDraws [1, 2, 3] ['k']
  obtain ⟨container, hwrite, -⟩ := writeContainer_some (p := recordingCipher zeroDraws [1, 2, 3] ['k'])
    [1, 2, 3] (rfl : deriveKey _ ['k'] zeroDraws.salt = some (utf8Encode ['k']))
  exact ⟨container, hwrite,
    readsOnly_iff_not_stripped _ zeroDraws [1, 2, 3] ['k'] hideal container hwrite (· ++ [0])⟩

/-- The header `{"encryption": null}` in place of the one written, and a payload of one's own. -/
theorem not_readsOnly_of_rewritten_header :
    ¬ ∀ (p : Primitives Bytes) (r : Randomness) (zipBytes : Bytes) (secret : List Char),
      p.Ideal (SealedBy p r zipBytes (some secret)) →
      ∀ container, writeContainer p r zipBytes (some secret) = some container →
        ∀ modify : Bytes → Bytes, ReadsOnly p zipBytes secret (modify container) := by
  intro hclaim
  have hideal := ideal_recordingCipher zeroDraws [1, 2, 3] ['k']
  obtain ⟨container, hwrite, -⟩ := writeContainer_some (p := recordingCipher zeroDraws [1, 2, 3] ['k'])
    [1, 2, 3] (rfl : deriveKey _ ['k'] zeroDraws.salt = some (utf8Encode ['k']))
  have hmeta : WrittenMeta zeroDraws .null := .inl rfl
  obtain ⟨forged, hforged⟩ := frame_isSome [9] hmeta
  have hread := read_unencrypted (p := recordingCipher zeroDraws [1, 2, 3] ['k']) hforged (some ['k'])
  have hsame := hclaim _ zeroDraws [1, 2, 3] ['k'] hideal container hwrite (fun _ => forged) [9] hread
  exact absurd hsame (by decide)

end Exports
