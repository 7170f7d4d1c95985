import IntraCloud.Exports.ContainerErrors
import IntraCloud.Exports.Proofs.ContainerProofs
import IntraCloud.Python.Proofs.JsonErrorsProofs

/-!
# Which containers raise nothing but a `ContainerError`

Each step raises what its model says; put together, nothing else than a `ContainerError` escapes exactly where
the header, its fields and the passphrase fit.
-/

namespace Exports.ContainerErrors

open Python

variable {Key α : Type} {p : Primitives Key} {depth : Nat} {data : Bytes}

theorem handled_ok (x : α) : Handled (.ok x : Except Raised α) := fun _ h => by cases h

theorem handled_error_iff {e : Raised} :
    Handled (.error e : Except Raised α) ↔ e.isContainerError = true := by
  constructor
  · intro h
    exact h e rfl
  · intro he e' h
    rw [← Except.error.inj h]
    exact he

theorem handled_bind_iff {β : Type} {r : Except Raised α} {f : α → Except Raised β} :
    Handled (r.bind f) ↔ Handled r ∧ ∀ x, r = .ok x → Handled (f x) := by
  cases r with
  | error e =>
    constructor
    · intro h
      exact ⟨handled_error_iff.mpr (handled_error_iff.mp h), nofun⟩
    · rintro ⟨h, -⟩
      exact handled_error_iff.mpr (handled_error_iff.mp h)
  | ok x =>
    constructor
    · intro h
      refine ⟨handled_ok x, fun y hy => ?_⟩
      rw [← Except.ok.inj hy]
      exact h
    · rintro ⟨-, h⟩
      exact h x rfl

/-! ## The header -/

theorem handled_readContainerHeader_iff :
    Handled (readContainerHeader depth data) ↔
      (data.take 8 = MAGIC → LoadsQuietly depth (headerBytes data)) := by
  unfold readContainerHeader
  by_cases hmagic : data.take 8 = MAGIC
  · rw [if_neg (not_not_intro hmagic)]
    constructor
    · intro h _ e he
      rw [he] at h
      cases e with
      | unicodeDecodeError => exact absurd (handled_error_iff.mp h) (by decide)
      | scan e =>
        cases e with
        | jsonDecodeError => rfl
        | _ => exact absurd (handled_error_iff.mp h) (by decide)
    · intro h
      cases hload : Json.loadBytesE depth (headerBytes data) with
      | ok header => exact handled_ok header
      | error e =>
        rw [h hmagic e hload]
        exact handled_error_iff.mpr rfl
  · rw [if_pos hmagic]
    exact ⟨fun _ h => absurd h hmagic, fun _ => handled_error_iff.mpr rfl⟩

theorem readContainerHeader_ok {header : PyJson} :
    readContainerHeader depth data = .ok header ↔
      data.take 8 = MAGIC ∧ Json.loadBytesE depth (headerBytes data) = .ok header := by
  unfold readContainerHeader
  by_cases hmagic : data.take 8 = MAGIC
  · rw [if_neg (not_not_intro hmagic)]
    constructor
    · intro h
      refine ⟨hmagic, ?_⟩
      split at h
      · rename_i header' hload
        rw [hload, Except.ok.inj h]
      all_goals cases h
    · rintro ⟨-, hload⟩
      rw [hload]
  · rw [if_pos hmagic]
    exact ⟨nofun, fun h => absurd h.1 hmagic⟩

/-! ## The metadata -/

theorem subscript_none {members : List (List Char × PyJson)} {key : String}
    (h : Json.member? key.toList members = none) : subscript (.dict members) key = .error .keyError := by
  simp only [subscript, h]

theorem subscript_some {members : List (List Char × PyJson)} {key : String} {v : PyJson}
    (h : Json.member? key.toList members = some v) : subscript (.dict members) key = .ok v := by
  simp only [subscript, h]

theorem hexField_none {members : List (List Char × PyJson)} {key : String}
    (h : Json.member? key.toList members = none) : hexField (.dict members) key = .error .keyError := by
  rw [hexField, subscript_none h]
  rfl

theorem hexField_some {members : List (List Char × PyJson)} {key : String} {v : PyJson}
    (h : Json.member? key.toList members = some v) : hexField (.dict members) key = fromHexValue v := by
  rw [hexField, subscript_some h]
  rfl

/-- What becomes of a member that should be hexadecimal. -/
theorem hexField_cases (members : List (List Char × PyJson)) (key : String) :
    (∃ bytes, HexMember key members bytes ∧ hexField (.dict members) key = .ok bytes) ∨
    (TextOrMissing key members ∧ (∀ bytes, ¬ HexMember key members bytes) ∧
      (hexField (.dict members) key = .error .keyError ∨ hexField (.dict members) key = .error .valueError)) ∨
    (¬ TextOrMissing key members ∧ hexField (.dict members) key = .error .typeError) := by
  cases hmember : Json.member? key.toList members with
  | none =>
    refine .inr (.inl ⟨fun v hv => ?_, ?_, .inl (hexField_none hmember)⟩)
    · rw [hmember] at hv
      cases hv
    · rintro bytes ⟨s, hs, -⟩
      rw [hmember] at hs
      cases hs
  | some v =>
    have hother : (∀ s, v ≠ .str s) → ¬ TextOrMissing key members := by
      intro hne htext
      obtain ⟨s, hs⟩ := htext v hmember
      exact hne s hs
    cases v with
    | str s =>
      have htext : TextOrMissing key members := by
        intro v hv
        rw [hmember] at hv
        exact ⟨s, (Option.some.inj hv).symm⟩
      cases hhex : fromHex s with
      | none =>
        refine .inr (.inl ⟨htext, ?_, .inr ?_⟩)
        · rintro bytes ⟨s', hs', hbytes⟩
          rw [hmember] at hs'
          obtain rfl := PyJson.str.inj (Option.some.inj hs')
          rw [hhex] at hbytes
          cases hbytes
        · rw [hexField_some hmember]
          simp only [fromHexValue, hhex]
      | some bytes =>
        refine .inl ⟨bytes, ⟨s, hmember, hhex⟩, ?_⟩
        rw [hexField_some hmember]
        simp only [fromHexValue, hhex]
    | _ => exact .inr (.inr ⟨hother nofun, by rw [hexField_some hmember]; rfl⟩)

theorem HexMember.unique {members : List (List Char × PyJson)} {key : String} {a b : Bytes}
    (ha : HexMember key members a) (hb : HexMember key members b) : a = b := by
  obtain ⟨s, hs, hbytes⟩ := ha
  obtain ⟨t, ht, hbytes'⟩ := hb
  rw [hs] at ht
  obtain rfl := PyJson.str.inj (Option.some.inj ht)
  rw [hbytes] at hbytes'
  exact Option.some.inj hbytes'

theorem HexMember.text {members : List (List Char × PyJson)} {key : String} {bytes : Bytes}
    (h : HexMember key members bytes) : TextOrMissing key members := by
  obtain ⟨s, hs, -⟩ := h
  intro v hv
  rw [hs] at hv
  exact ⟨s, (Option.some.inj hv).symm⟩

/-- The `try` statement gives the fields, or a `ContainerError`, or the `TypeError` of a field. -/
theorem readMetadata_cases (members : List (List Char × PyJson)) :
    (∃ salt nonce params, HexMember "salt" members salt ∧ HexMember "nonce" members nonce ∧
      Json.member? "kdf_params".toList members = some params ∧
      readMetadata (.dict members) = .ok (salt, nonce, params)) ∨
    (TextOrMissing "salt" members ∧ (∀ salt, HexMember "salt" members salt → TextOrMissing "nonce" members) ∧
      (∀ salt nonce params, HexMember "salt" members salt → HexMember "nonce" members nonce →
        Json.member? "kdf_params".toList members ≠ some params) ∧
      readMetadata (.dict members) =
        .error (.containerError "corrupt encryption metadata in package header")) ∨
    (¬ (TextOrMissing "salt" members ∧
      ∀ salt, HexMember "salt" members salt → TextOrMissing "nonce" members) ∧
      readMetadata (.dict members) = .error .typeError) := by
  unfold readMetadata metadata
  rcases hexField_cases members "salt" with ⟨salt, hsalt, heq⟩ | ⟨htext, hnone, heq | heq⟩ | ⟨htext, heq⟩
  · rw [heq]
    simp only [Except.bind]
    rcases hexField_cases members "nonce" with ⟨nonce, hnonce, heq'⟩ | ⟨htext', hnone', heq'⟩ | ⟨htext', heq'⟩
    · rw [heq']
      cases hparams : Json.member? "kdf_params".toList members with
      | none =>
        rw [subscript_none hparams]
        exact .inr (.inl ⟨hsalt.text, fun _ _ => hnonce.text, fun _ _ _ _ _ => nofun, rfl⟩)
      | some params =>
        rw [subscript_some hparams]
        exact .inl ⟨salt, nonce, params, hsalt, hnonce, rfl, rfl⟩
    · refine .inr (.inl ⟨hsalt.text, fun _ _ => htext', fun _ nonce _ _ h => absurd h (hnone' nonce), ?_⟩)
      rcases heq' with heq' | heq' <;> rw [heq']
    · rw [heq']
      exact .inr (.inr ⟨fun h => htext' (h.2 salt hsalt), rfl⟩)
  · rw [heq]
    exact .inr (.inl ⟨htext, fun s h => absurd h (hnone s), fun s _ _ h => absurd h (hnone s), rfl⟩)
  · rw [heq]
    exact .inr (.inl ⟨htext, fun s h => absurd h (hnone s), fun s _ _ h => absurd h (hnone s), rfl⟩)
  · rw [heq]
    exact .inr (.inr ⟨fun h => htext h.1, rfl⟩)

/-! ## The key and the payload -/

/-- The derivation gives a key, or raises something else than a `ContainerError`. -/
theorem headerKey_cases (p : Primitives Key) (passphrase : List (Fin 0x110000)) (salt : Bytes)
    (params : PyJson) :
    (KeyFits p passphrase salt params ∧ ∃ key, headerKey p passphrase salt params = .ok key) ∨
    (¬ KeyFits p passphrase salt params ∧
      ∃ e, headerKey p passphrase salt params = .error e ∧ e.isContainerError = false) := by
  have hmissing : ∀ e, headerKey p passphrase salt params = .error e → ¬ KeyFits p passphrase salt params := by
    rintro e he ⟨secret, costs, t, m, l, hsecret, rfl, ht, hm, hl, hkey⟩
    obtain ⟨key, hkey⟩ := Option.isSome_iff_exists.mp hkey
    rw [headerKey, hsecret] at he
    simp only [subscript_some ht, subscript_some hm, subscript_some hl, Except.bind, hkey] at he
    cases he
  have hraised : ∀ e, headerKey p passphrase salt params = .error e → e.isContainerError = false →
      ¬ KeyFits p passphrase salt params ∧
        ∃ e, headerKey p passphrase salt params = .error e ∧ e.isContainerError = false := by
    intro e he hother
    exact ⟨hmissing e he, e, he, hother⟩
  cases hsecret : encodePassphrase? passphrase with
  | none =>
    refine .inr (hraised .unicodeEncodeError ?_ rfl)
    rw [headerKey, hsecret]
  | some secret =>
    cases params with
    | dict costs =>
      cases ht : Json.member? "time_cost".toList costs with
      | none =>
        refine .inr (hraised .keyError ?_ rfl)
        rw [headerKey, hsecret]
        simp only [subscript_none ht, Except.bind]
      | some t =>
        cases hm : Json.member? "memory_cost_kib".toList costs with
        | none =>
          refine .inr (hraised .keyError ?_ rfl)
          rw [headerKey, hsecret]
          simp only [subscript_some ht, subscript_none hm, Except.bind]
        | some m =>
          cases hl : Json.member? "parallelism".toList costs with
          | none =>
            refine .inr (hraised .keyError ?_ rfl)
            rw [headerKey, hsecret]
            simp only [subscript_some ht, subscript_some hm, subscript_none hl, Except.bind]
          | some l =>
            cases hkey : p.hashSecretRaw secret salt t m l with
            | none =>
              refine .inr (hraised .keyDerivation ?_ rfl)
              rw [headerKey, hsecret]
              simp only [subscript_some ht, subscript_some hm, subscript_some hl, Except.bind, hkey]
            | some key =>
              refine .inl ⟨⟨secret, costs, t, m, l, hsecret, rfl, ht, hm, hl, ?_⟩, key, ?_⟩
              · rw [hkey]
                rfl
              · rw [headerKey, hsecret]
                simp only [subscript_some ht, subscript_some hm, subscript_some hl, Except.bind, hkey]
    | _ =>
      refine .inr (hraised .typeError ?_ rfl)
      rw [headerKey, hsecret]
      rfl

theorem handled_decryptPayload_iff (p : Primitives Key) (key : Key) (nonce payload : Bytes) :
    Handled (decryptPayload p key nonce payload) ↔
      8 ≤ nonce.length ∧ nonce.length ≤ 128 ∧ payload.length ≤ maxData := by
  unfold decryptPayload
  by_cases hnonce : nonce.length < 8 ∨ 128 < nonce.length
  · rw [if_pos hnonce, handled_error_iff]
    constructor
    · intro h
      cases h
    · rintro ⟨hle, hle', -⟩
      omega
  · rw [if_neg hnonce]
    by_cases hpayload : maxData < payload.length
    · rw [if_pos hpayload, handled_error_iff]
      constructor
      · intro h
        cases h
      · rintro ⟨-, -, hle⟩
        omega
    · rw [if_neg hpayload]
      constructor
      · intro _
        omega
      · intro _
        cases p.decrypt key nonce payload with
        | some plain => exact handled_ok plain
        | none => exact handled_error_iff.mpr rfl

theorem handled_readEncrypted_iff (p : Primitives Key) (payload : Bytes) (encryption : PyJson)
    (secret : List (Fin 0x110000)) :
    Handled (readEncrypted p payload encryption (some secret)) ↔ EncryptionFits p secret payload encryption := by
  cases encryption with
  | dict members =>
    unfold readEncrypted
    rcases readMetadata_cases members with ⟨salt, nonce, params, hsalt, hnonce, hparams, hread⟩ |
      ⟨htext, htext', hnone, hread⟩ | ⟨hother, hread⟩
    · rw [hread]
      simp only [Except.bind]
      have hfits : EncryptionFits p secret payload (.dict members) ↔
          KeyFits p secret salt params ∧ 8 ≤ nonce.length ∧ nonce.length ≤ 128 ∧ payload.length ≤ maxData := by
        constructor
        · rintro ⟨_, hdict, -, hsalts⟩
          obtain rfl := PyJson.dict.inj hdict
          exact (hsalts salt hsalt).2 nonce params hnonce hparams
        · intro hfits
          refine ⟨members, rfl, hsalt.text, fun salt' hsalt' => ⟨hnonce.text, ?_⟩⟩
          intro nonce' params' hnonce' hparams'
          obtain rfl := hsalt.unique hsalt'
          obtain rfl := hnonce.unique hnonce'
          rw [hparams] at hparams'
          obtain rfl := Option.some.inj hparams'
          exact hfits
      rw [hfits]
      rcases headerKey_cases p secret salt params with ⟨hkey, key, heq⟩ | ⟨hkey, e, heq, he⟩
      · rw [heq, handled_decryptPayload_iff]
        exact ⟨fun h => ⟨hkey, h⟩, fun h => h.2⟩
      · rw [heq, handled_error_iff, he]
        exact ⟨nofun, fun h => absurd h.1 hkey⟩
    · rw [hread]
      refine ⟨fun _ => ⟨members, rfl, htext, fun salt hsalt => ⟨htext' salt hsalt, ?_⟩⟩,
        fun _ => handled_error_iff.mpr rfl⟩
      intro nonce params hnonce hparams
      exact absurd hparams (hnone salt nonce params hsalt hnonce)
    · rw [hread]
      constructor
      · intro h
        exact absurd (handled_error_iff.mp h) (by decide)
      · rintro ⟨_, hdict, htext, hsalts⟩
        obtain rfl := PyJson.dict.inj hdict
        exact absurd ⟨htext, fun salt hsalt => (hsalts salt hsalt).1⟩ hother
  | _ =>
    constructor
    · intro h
      exact absurd (h .typeError rfl) (by decide)
    · rintro ⟨members, heq, -⟩
      cases heq

/-- What comes after the header. -/
theorem handled_afterHeader_iff (p : Primitives Key) (payload : Bytes) (header : PyJson)
    (passphrase : Option (List (Fin 0x110000))) :
    Handled (match header with
      | .dict members =>
        match encryptionOf members with
        | none => .ok payload
        | some encryption => readEncrypted p payload encryption passphrase
      | _ => .error .attributeError) ↔
    ∃ members, header = .dict members ∧
      ∀ encryption secret, encryptionOf members = some encryption → passphrase = some secret →
        EncryptionFits p secret payload encryption := by
  cases header with
  | dict members =>
    dsimp only
    have hfields : (∃ members', PyJson.dict members = .dict members' ∧
          ∀ encryption secret, encryptionOf members' = some encryption → passphrase = some secret →
            EncryptionFits p secret payload encryption) ↔
        ∀ encryption secret, encryptionOf members = some encryption → passphrase = some secret →
          EncryptionFits p secret payload encryption := by
      constructor
      · rintro ⟨_, hdict, h⟩
        obtain rfl := PyJson.dict.inj hdict
        exact h
      · intro h
        exact ⟨members, rfl, h⟩
    rw [hfields]
    cases hencryption : encryptionOf members with
    | none =>
      constructor
      · intro _ encryption secret hnone
        cases hnone
      · intro _
        exact handled_ok payload
    | some encryption =>
      cases passphrase with
      | none =>
        constructor
        · intro _ encryption secret _ hnone
          cases hnone
        · intro _
          exact handled_error_iff.mpr rfl
      | some secret =>
        dsimp only
        rw [handled_readEncrypted_iff]
        constructor
        · intro h encryption' secret' hsame hsame'
          rw [← Option.some.inj hsame, ← Option.some.inj hsame']
          exact h
        · intro h
          exact h encryption secret rfl rfl
  | _ =>
    constructor
    · intro h
      exact absurd (handled_error_iff.mp h) (by decide)
    · rintro ⟨members, heq, -⟩
      cases heq

/-- Nothing but a `ContainerError` escapes from reading a container exactly where it fits. -/
theorem handled_iff_fits (p : Primitives Key) (depth : Nat) (data : Bytes)
    (passphrase : Option (List (Fin 0x110000))) :
    Handled (readContainerHeader depth data) ∧ Handled (readContainerPayload p depth data passphrase) ↔
      Fits p depth data passphrase := by
  have hpayload : Handled (readContainerPayload p depth data passphrase) ↔
      Handled (readContainerHeader depth data) ∧
        ∀ header, data.take 8 = MAGIC ∧ Json.loadBytesE depth (headerBytes data) = .ok header →
          ∃ members, header = .dict members ∧
            ∀ encryption secret, encryptionOf members = some encryption → passphrase = some secret →
              EncryptionFits p secret (payloadOf data) encryption := by
    unfold readContainerPayload
    rw [handled_bind_iff]
    refine and_congr_right fun _ => forall_congr' fun header => ?_
    rw [readContainerHeader_ok]
    exact imp_congr_right fun _ => handled_afterHeader_iff p _ header passphrase
  rw [hpayload, handled_readContainerHeader_iff]
  unfold Fits
  constructor
  · rintro ⟨hquiet, -, hheader⟩ hmagic
    exact ⟨hquiet hmagic, fun header hload => hheader header ⟨hmagic, hload⟩⟩
  · intro h
    have hquiet := fun hmagic => (h hmagic).1
    exact ⟨hquiet, hquiet, fun header hload => (h hload.1).2 header hload.2⟩

/-- The header `[]`, which has no `get`. -/
theorem not_handled_of_array_header :
    ¬ ∀ (p : Primitives Bytes) (depth : Nat) (data : Bytes) (passphrase : Option (List (Fin 0x110000))),
      Handled (readContainerHeader depth data) ∧ Handled (readContainerPayload p depth data passphrase) := by
  intro h
  have hhandled := (h ⟨fun _ _ _ _ _ => none, fun _ _ data => data, fun _ _ _ => none⟩ 1
    (MAGIC ++ [0, 0, 0, 2, 0x5B, 0x5D]) none).2
  have hraised : readContainerPayload (⟨fun _ _ _ _ _ => none, fun _ _ data => data, fun _ _ _ => none⟩ :
      Primitives Bytes) 1 (MAGIC ++ [0, 0, 0, 2, 0x5B, 0x5D]) none = .error .attributeError := rfl
  exact absurd (hhandled _ hraised) (by decide)

/-! ## What is read -/

theorem encodePassphrase?_codePoints (s : List Char) : encodePassphrase? (codePoints s) = some (utf8Encode s) := by
  have hpoint : ∀ c : Char, codePoint? none c.toNat = some c := by
    intro c
    have hvalid : c.val.toNat < 0xD800 ∨ 0xDFFF < c.val.toNat ∧ c.val.toNat < 0x110000 := c.valid
    rw [codePoint?, if_pos, Char.ofNat_toNat]
    show c.val.toNat < 0xD800 ∨ 0xE000 ≤ c.val.toNat ∧ c.val.toNat < 0x110000
    omega
  have hall : (codePoints s).mapM (fun n => codePoint? none n.val) = some s := by
    unfold codePoints
    induction s with
    | nil => rfl
    | cons c s ih =>
      rw [List.map_cons, List.mapM_cons]
      simp only [hpoint, ih]
      rfl
  rw [encodePassphrase?, hall, Option.map_some]

theorem hexField_ok {members : List (List Char × PyJson)} {key : String} {bytes : Bytes}
    (h : HexMember key members bytes) : Exports.hexField key members = .ok bytes := by
  obtain ⟨s, hmember, hhex⟩ := h
  simp only [Exports.hexField, hmember, hhex]

theorem headerKey_ok {secret : List Char} {salt : Bytes} {params : PyJson} {key : Key}
    (h : headerKey p (codePoints secret) salt params = .ok key) :
    Exports.headerKey p secret salt params = some key := by
  rcases headerKey_cases p (codePoints secret) salt params with ⟨hfits, -⟩ | ⟨-, e, he, -⟩
  · obtain ⟨bytes, costs, t, m, l, hsecret, rfl, ht, hm, hl, hkey⟩ := hfits
    rw [encodePassphrase?_codePoints] at hsecret
    obtain rfl := Option.some.inj hsecret
    rw [headerKey, encodePassphrase?_codePoints] at h
    simp only [subscript_some ht, subscript_some hm, subscript_some hl, Except.bind] at h
    unfold Exports.headerKey
    simp only [ht, hm, hl, bind, Option.bind]
    split at h
    · cases h
    · rename_i key' hderived
      rw [hderived, Except.ok.inj h]
  · rw [he] at h
    cases h

theorem readEncrypted_ok {payload plain : Bytes} {encryption : PyJson} {secret : List Char}
    (h : readEncrypted p payload encryption (some (codePoints secret)) = .ok plain) :
    Exports.readEncrypted p payload encryption (some secret) = .ok plain := by
  unfold readEncrypted at h
  cases encryption with
  | dict members =>
    rcases readMetadata_cases members with ⟨salt, nonce, params, hsalt, hnonce, hparams, hread⟩ |
      ⟨-, -, -, hread⟩ | ⟨-, hread⟩
    · rw [hread] at h
      simp only [Except.bind] at h
      cases hkey : headerKey p (codePoints secret) salt params with
      | error e =>
        rw [hkey] at h
        cases h
      | ok key =>
        rw [hkey] at h
        unfold Exports.readEncrypted Exports.readMetadata
        simp only [hexField_ok hsalt, hexField_ok hnonce, hparams, headerKey_ok hkey, bind, Except.bind]
        unfold decryptPayload at h
        unfold Exports.decryptPayload
        dsimp only at h ⊢
        split_ifs at h with hlength hpayload
        rw [if_neg hlength]
        cases hplain : p.decrypt key nonce payload with
        | none =>
          rw [hplain] at h
          cases h
        | some bytes =>
          rw [hplain] at h
          rw [Except.ok.inj h]
    · rw [hread] at h
      cases h
    · rw [hread] at h
      cases h
  | _ => cases h

/-- What is read of a container is what the model without the other exceptions reads. -/
theorem readContainerPayload_ok {passphrase : Option (List Char)} {plain : Bytes}
    (h : readContainerPayload p depth data (passphrase.map codePoints) = .ok plain) :
    Exports.readContainerPayload p data passphrase = .ok plain := by
  unfold readContainerPayload at h
  cases hheader : readContainerHeader depth data with
  | error e =>
    rw [hheader] at h
    cases h
  | ok header =>
    rw [hheader] at h
    obtain ⟨hmagic, hload⟩ := readContainerHeader_ok.mp hheader
    have hloaded : Exports.readContainerHeader data = .ok header := by
      have hbytes := Json.loadBytesE_ok hload
      unfold headerBytes at hbytes
      rw [Exports.readContainerHeader, if_neg (not_not_intro hmagic), hbytes]
    rw [Exports.readContainerPayload, hloaded]
    simp only [bind, Except.bind] at h ⊢
    cases header with
    | dict members =>
      dsimp only at h ⊢
      cases hencryption : encryptionOf members with
      | none =>
        rw [hencryption] at h
        rw [← Except.ok.inj h]
      | some encryption =>
        rw [hencryption] at h
        dsimp only at h ⊢
        cases passphrase with
        | none => cases h
        | some secret => exact readEncrypted_ok h
    | _ => cases h

/-- A cipher that writes the key before the text, where the key is the passphrase. -/
def prefixing : Primitives Bytes where
  hashSecretRaw secret _ _ _ _ := some secret
  encrypt key _ data := key ++ data
  decrypt key _ data := if data.take key.length = key then some (data.drop key.length) else none

/-- A container under a passphrase. -/
def prefixed : Bytes :=
  (frame (.dict [
    ("salt".toList, .str "a0".toList),
    ("nonce".toList, .str "0001020304050607".toList),
    ("kdf_params".toList, .dict [
      ("time_cost".toList, .int 3),
      ("memory_cost_kib".toList, .int 8),
      ("parallelism".toList, .int 1)])]) (prefixing.encrypt (utf8Encode ['k']) [] [7, 8])).getD []

/-- The container is opened with its passphrase. -/
theorem readContainerPayload_ok_prefixed :
    Exports.readContainerPayload prefixing prefixed (some ['k']) = .ok [7, 8] := by
  have hread : (readContainerPayload prefixing 9 prefixed (some (codePoints ['k']))).toOption = some [7, 8] := by
    decide +kernel
  cases hplain : readContainerPayload prefixing 9 prefixed (some (codePoints ['k'])) with
  | error e =>
    rw [hplain] at hread
    cases hread
  | ok plain =>
    rw [hplain] at hread
    obtain rfl := Option.some.inj hread
    exact readContainerPayload_ok hplain

end Exports.ContainerErrors
