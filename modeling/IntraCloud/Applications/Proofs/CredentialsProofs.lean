import IntraCloud.Applications.Services
import IntraCloud.Python.Proofs.CodecsProofs
import IntraCloud.Python.Proofs.UuidProofs
import IntraCloud.Transition.Proofs.RunsProofs
import Mathlib.Data.List.TakeWhile

/-!
# Which tokens are accepted

A row of the table goes back to the call that issued it, and what has happened to it since is what the
calls since have done. So a token is accepted exactly where it is one that was issued, its credential has
not been revoked since and has not expired.
-/

namespace Applications

open Python Transition

variable {sha256 : Sha256} {s : State}

/-! ## What is drawn -/

theorem uuid4_lt (random : Nat) : uuid4 random < 16 ^ 32 := by
  have hpow : 16 ^ 32 = 340282366920938463463374607431768211456 := by decide
  rw [hpow]
  unfold uuid4
  omega

theorem length_urlsafeText (width n : Nat) : (urlsafeText width n).length = width := by
  induction width generalizing n with
  | zero => rfl
  | succ width ih => rw [urlsafeText, List.length_append, ih, List.length_singleton]

theorem tokenUrlsafe_ne_nil (random : Nat) : tokenUrlsafe random ≠ [] := by
  intro h
  have hlength := length_urlsafeText 43 (4 * random)
  rw [show urlsafeText 43 (4 * random) = [] from h] at hlength
  cases hlength

/-! ## Hashes -/

theorem ascii_of_mem_hexOfBytes {b : Bytes} {c : Char} (h : c ∈ hexOfBytes b) : c.toNat < 128 := by
  obtain ⟨x, -, hc⟩ := List.mem_flatMap.mp h
  obtain ⟨d, hd, rfl⟩ := mem_hexText hc
  have hsmall := (hexDigit_spec hd).2.2.2.2.2.2.2.2
  omega

/-- The comparison of two hashes never raises. -/
theorem compareDigest_hash (b b' : Bytes) :
    Accounts.compareDigest (hexOfBytes b) (hexOfBytes b') = some (hexOfBytes b == hexOfBytes b') := by
  unfold Accounts.compareDigest
  rw [if_pos]
  rw [List.all_eq_true]
  intro c hc
  rcases List.mem_append.mp hc with hc | hc
  · exact decide_eq_true (ascii_of_mem_hexOfBytes hc)
  · exact decide_eq_true (ascii_of_mem_hexOfBytes hc)

/-- Where SHA-256 has no collisions, the hash tells the secrets apart. -/
theorem hashSecret_injective (hsha : Function.Injective sha256) :
    Function.Injective (hashSecret sha256) := by
  intro x y h
  have hbytes : sha256 (utf8Encode x) = sha256 (utf8Encode y) := by
    have hread := congrArg fromHex h
    unfold hashSecret at hread
    rw [fromHex_hexOfBytes, fromHex_hexOfBytes] at hread
    exact Option.some.inj hread
  have htext := congrArg decodeUtf8 (hsha hbytes)
  rw [decodeUtf8_utf8Encode, decodeUtf8_utf8Encode] at htext
  exact Option.some.inj htext

/-! ## Tokens -/

/-- The text is the token of `id` and `secret`, up to the spelling of the UUID. -/
def Spells (text : List Char) (id : Uuid) (secret : List Char) : Prop :=
  ∃ idPart, text = TOKEN_PREFIX ++ idPart ++ '.' :: secret ∧ '.' ∉ idPart ∧ parseUuid? idPart = some id

/-- The text is this token of `id`, up to the spelling of the UUID. -/
def SameToken (text : List Char) (id : Uuid) (issued : List Char) : Prop :=
  ∃ secret, issued = token id secret ∧ Spells text id secret

/-- An issued token spells itself. -/
theorem spells_token {id : Uuid} (hid : id < 16 ^ 32) (secret : List Char) :
    Spells (token id secret) id secret := by
  refine ⟨hexText 32 id, rfl, fun hdot => ?_, parseUuid?_hexText hid⟩
  obtain ⟨d, hd, heq⟩ := mem_hexText hdot
  have hall : ∀ d < 16, '.' ≠ hexDigit d := by decide
  exact hall d hd heq

/-- What `resolve_credential` reads in a text that spells a token. -/
theorem parts_of_spells {text secret : List Char} {id : Uuid} (h : Spells text id secret) :
    TOKEN_PREFIX.isPrefixOf text = true ∧
      ((text.drop TOKEN_PREFIX.length).dropWhile (· ≠ '.')).drop 1 = secret ∧
        parseUuid? ((text.drop TOKEN_PREFIX.length).takeWhile (· ≠ '.')) = some id := by
  obtain ⟨idPart, rfl, hdot, hid⟩ := h
  have hall : ∀ c ∈ idPart, decide (c ≠ '.') = true := by
    intro c hc
    exact decide_eq_true fun heq => hdot (heq ▸ hc)
  have hstop : ∀ c ∈ ('.' :: secret).head?, decide (c ≠ '.') = false := by simp
  rw [List.append_assoc, List.drop_left, takeWhile_append_stop hall hstop, dropWhile_append_stop hall hstop]
  exact ⟨List.isPrefixOf_iff_prefix.mpr (List.prefix_append _ _), rfl, hid⟩

/-- And conversely. -/
theorem spells_of_parts {text : List Char} {id : Uuid} (hmarked : TOKEN_PREFIX.isPrefixOf text = true)
    (hsecret : ((text.drop TOKEN_PREFIX.length).dropWhile (· ≠ '.')).drop 1 ≠ [])
    (hid : parseUuid? ((text.drop TOKEN_PREFIX.length).takeWhile (· ≠ '.')) = some id) :
    Spells text id (((text.drop TOKEN_PREFIX.length).dropWhile (· ≠ '.')).drop 1) := by
  obtain ⟨remainder, rfl⟩ := List.isPrefixOf_iff_prefix.mp hmarked
  rw [List.drop_left] at hsecret hid ⊢
  refine ⟨remainder.takeWhile (· ≠ '.'), ?_, ?_, hid⟩
  · have hjoin := List.takeWhile_append_dropWhile (p := fun c : Char => decide (c ≠ '.')) (l := remainder)
    cases hrest : remainder.dropWhile (· ≠ '.') with
    | nil =>
      rw [hrest] at hsecret
      exact absurd rfl hsecret
    | cons c rest =>
      have hc : c = '.' := by
        have hhead := List.head?_dropWhile_not (fun c : Char => decide (c ≠ '.')) remainder
        rw [hrest] at hhead
        simpa using hhead
      subst hc
      rw [hrest] at hjoin
      rw [List.append_assoc, List.drop_one, List.tail_cons, hjoin]
  · intro hmem
    simpa using List.mem_takeWhile_imp hmem

/-! ## One call -/

/-- The row of a credential that is neither revoked nor expired. -/
def Live (s : State) (row : ApplicationCredential) : Prop :=
  row.revokedAt = none ∧ row.expiresAt.any (· ≤ s.now) = false

/-- When a token resolves, and to what. -/
theorem resolveCredential_ok_iff (text : List Char) (c : ApplicationCredential) :
    (resolveCredential sha256 s text).2 = .ok c ↔
      ∃ id secret row, Spells text id secret ∧ secret ≠ [] ∧ s.credential? id = some row ∧ Live s row ∧
        Accounts.compareDigest row.secretHash (hashSecret sha256 secret) = some true ∧
          c = { row with lastUsedAt := some s.now } := by
  constructor
  · intro h
    unfold resolveCredential at h
    by_cases hmarked : TOKEN_PREFIX.isPrefixOf text = true
    · rw [if_neg (not_not_intro hmarked)] at h
      dsimp only at h
      by_cases hsecret : ((text.drop TOKEN_PREFIX.length).dropWhile (· ≠ '.')).drop 1 = []
      · rw [if_pos hsecret] at h
        cases h
      · rw [if_neg hsecret] at h
        split at h
        · cases h
        rename_i id hid
        split at h
        · cases h
        rename_i row hrow
        split at h
        · cases h
        rename_i hrevoked
        split at h
        · cases h
        rename_i hexpired
        split at h
        · cases h
        · cases h
        · rename_i hhash
          cases h
          exact ⟨id, _, row, spells_of_parts hmarked hsecret hid, hsecret, hrow,
            ⟨not_not.mp hrevoked, Bool.not_eq_true _ ▸ hexpired⟩, hhash, rfl⟩
    · rw [if_pos hmarked] at h
      cases h
  · rintro ⟨id, secret, row, hspells, hne, hrow, ⟨hrevoked, hexpired⟩, hhash, rfl⟩
    obtain ⟨hmarked, hsecret, hid⟩ := parts_of_spells hspells
    unfold resolveCredential
    rw [if_neg (not_not_intro hmarked)]
    dsimp only
    rw [hsecret, if_neg hne, hid]
    dsimp only
    rw [hrow]
    dsimp only
    rw [if_neg (not_not_intro hrevoked), hexpired, if_neg Bool.false_ne_true, hhash]

/-- The hashes in the table are hexadecimal. -/
def Hashed (s : State) : Prop := ∀ row ∈ s.credentials, ∃ b, row.secretHash = hexOfBytes b

/-- Nothing but `InvalidCredential` is raised. -/
theorem resolveCredential_error (hs : Hashed s) {text : List Char} {e : CredentialError}
    (h : (resolveCredential sha256 s text).2 = .error e) : ∃ message, e = .invalid message := by
  unfold resolveCredential at h
  split at h
  · cases h
    exact ⟨_, rfl⟩
  dsimp only at h
  split at h
  · cases h
    exact ⟨_, rfl⟩
  split at h
  · cases h
    exact ⟨_, rfl⟩
  split at h
  · cases h
    exact ⟨_, rfl⟩
  rename_i row hrow
  split at h
  · cases h
    exact ⟨_, rfl⟩
  split at h
  · cases h
    exact ⟨_, rfl⟩
  obtain ⟨b, hb⟩ := hs row (List.mem_of_find?_eq_some hrow)
  rw [hb, hashSecret, compareDigest_hash] at h
  cases hsame : hexOfBytes b == hexOfBytes (sha256 (utf8Encode
      (((text.drop TOKEN_PREFIX.length).dropWhile (· ≠ '.')).drop 1))) with
  | false =>
    rw [hsame] at h
    cases h
    exact ⟨_, rfl⟩
  | true =>
    rw [hsame] at h
    cases h

/-! ## The table after a call -/

theorem credential?_id {id : Uuid} {row : ApplicationCredential} (h : s.credential? id = some row) :
    row.id = id := by
  simpa using List.find?_some h

theorem credential?_save (saved : ApplicationCredential) (id : Uuid) :
    (s.save saved).credential? id =
      (s.credential? id).map fun row => if row.id = saved.id then saved else row := by
  unfold State.save State.credential?
  dsimp only
  rw [List.find?_map]
  congr 2
  funext row
  by_cases hrow : row.id = saved.id
  · simp [hrow]
  · simp [hrow]

@[simp] theorem credential?_record (e : Audit.AuditEvent) (id : Uuid) :
    (s.record e).credential? id = s.credential? id := rfl

/-- The same credential: what no call changes of a row. -/
structure Same (row row' : ApplicationCredential) : Prop where
  id : row'.id = row.id
  serviceAccount : row'.serviceAccount = row.serviceAccount
  secretHash : row'.secretHash = row.secretHash
  expiresAt : row'.expiresAt = row.expiresAt

theorem Same.rfl {row : ApplicationCredential} : Same row row := ⟨.refl _, .refl _, .refl _, .refl _⟩

theorem Same.trans {a b c : ApplicationCredential} (hab : Same a b) (hbc : Same b c) : Same a c :=
  ⟨hbc.id.trans hab.id, hbc.serviceAccount.trans hab.serviceAccount, hbc.secretHash.trans hab.secretHash,
    hbc.expiresAt.trans hab.expiresAt⟩

/-- What is known of a credential that has just been issued in the state `s`. -/
structure FreshCredential (sha256 : Sha256) (s : State) (c : ApplicationCredential) (issued : List Char) :
    Prop where
  unused : s.credential? c.id = none
  notRevoked : c.revokedAt = none
  id_lt : c.id < 16 ^ 32
  token : ∃ secret, secret ≠ [] ∧ issued = Applications.token c.id secret ∧
    c.secretHash = hashSecret sha256 secret

theorem issueCredential_cases (sha256 : Sha256) (serviceAccount : ServiceAccount) (actor : Uuid)
    (expiresAt : Option Nat) (random : Random) :
    issueCredential sha256 s serviceAccount actor expiresAt random = (s, .error .integrity) ∨
      ∃ c issued log, issueCredential sha256 s serviceAccount actor expiresAt random =
          ({ s with credentials := s.credentials ++ [c], auditLog := log }, .ok (c, issued)) ∧
        FreshCredential sha256 s c issued := by
  unfold issueCredential
  dsimp only
  split
  · exact .inl rfl
  · rename_i hunused
    refine .inr ⟨_, _, _, rfl, ?_, rfl, uuid4_lt random.id, _, tokenUrlsafe_ne_nil random.secret, rfl, rfl⟩
    refine List.find?_eq_none.mpr fun row hrow hid => hunused ?_
    exact List.any_eq_true.mpr ⟨row, hrow, by rw [hid, Bool.true_or]⟩

theorem rotateCredential_cases (sha256 : Sha256) (credential : ApplicationCredential) (actor : Uuid) (random : Random) :
    rotateCredential sha256 s credential actor random = (s, .error .integrity) ∨
      ∃ c issued log, rotateCredential sha256 s credential actor random =
          ({ s with credentials := (s.save { credential with revokedAt := some s.now }).credentials ++ [c],
                    auditLog := log }, .ok (c, issued)) ∧
        FreshCredential sha256 (s.save { credential with revokedAt := some s.now }) c issued := by
  unfold rotateCredential
  rcases issueCredential_cases sha256 (s := revokeCredential s credential actor)
      credential.serviceAccount actor none random with hfailed | ⟨c, issued, log, hissued, hfresh⟩
  · rw [hfailed]
    exact .inl rfl
  · rw [hissued]
    exact .inr ⟨c, issued, _, rfl, hfresh.unused, hfresh.notRevoked, hfresh.id_lt, hfresh.token⟩

theorem resolveCredential_fst (sha256 : Sha256) (text : List Char) :
    (resolveCredential sha256 s text).1 = s ∨
      ∃ row, s.credential? row.id = some row ∧
        (resolveCredential sha256 s text).1 = s.save { row with lastUsedAt := some s.now } := by
  unfold resolveCredential
  split
  · exact .inl rfl
  dsimp only
  split
  · exact .inl rfl
  split
  · exact .inl rfl
  split
  · exact .inl rfl
  rename_i row hrow
  split
  · exact .inl rfl
  split
  · exact .inl rfl
  split
  · exact .inl rfl
  · exact .inl rfl
  · refine .inr ⟨row, ?_, rfl⟩
    rw [credential?_id hrow]
    exact hrow

/-- The action revokes the credential: a call to revoke it, or one to rotate it that succeeds. -/
def Revokes (sha256 : Sha256) (s : State) (id : Uuid) : Action → Prop
  | .revoke target _ => target = id
  | .rotate target actor random =>
    target = id ∧ ∃ c issued, (serve sha256 s (.rotate target actor random)).2 = .issued c issued
  | _ => False

/-- What an action does to the table. -/
inductive TableChange (sha256 : Sha256) (s : State) : Action → List ApplicationCredential → Response → Prop
  where
  | kept {a out} (hout : ∀ c issued, out ≠ .issued c issued) (hnot : ∀ id row, s.credential? id = some row →
      ¬ Revokes sha256 s id a) : TableChange sha256 s a s.credentials out
  | unissued {a e} (hnot : ∀ id, ¬ Revokes sha256 s id a) : TableChange sha256 s a s.credentials (.raised e)
  | used {text row out} (hrow : s.credential? row.id = some row) (hout : ∀ c issued, out ≠ .issued c issued) :
    TableChange sha256 s (.resolve text) (s.save { row with lastUsedAt := some s.now }).credentials out
  | issued {serviceAccount actor expiresAt random c issued} (hfresh : FreshCredential sha256 s c issued) :
    TableChange sha256 s (.issue serviceAccount actor expiresAt random) (s.credentials ++ [c])
      (.issued c issued)
  | revoked {id actor row} (hrow : s.credential? id = some row) :
    TableChange sha256 s (.revoke id actor) (s.save { row with revokedAt := some s.now }).credentials .done
  | rotated {id actor random row c issued} (hrow : s.credential? id = some row)
    (hfresh : FreshCredential sha256 (s.save { row with revokedAt := some s.now }) c issued) :
    TableChange sha256 s (.rotate id actor random)
      ((s.save { row with revokedAt := some s.now }).credentials ++ [c]) (.issued c issued)

theorem table_step (sha256 : Sha256) (a : Action) :
    TableChange sha256 s a (step sha256 s a).credentials (serve sha256 s a).2 := by
  cases a with
  | issue serviceAccount actor expiresAt random =>
    show TableChange sha256 s _ (issueCredential sha256 s serviceAccount actor expiresAt random).1.credentials
      (issuedResponse (issueCredential sha256 s serviceAccount actor expiresAt random).2)
    rcases issueCredential_cases sha256 (s := s) serviceAccount actor expiresAt random with
      hfailed | ⟨c, issued, log, hissued, hfresh⟩
    · rw [hfailed]
      exact .unissued fun _ h => h
    · rw [hissued]
      exact .issued hfresh
  | rotate id actor random =>
    cases hrow : s.credential? id with
    | none =>
      have hserve : serve sha256 s (.rotate id actor random) = (s, .notFound) := by simp only [serve, hrow]
      unfold step
      rw [hserve]
      refine .kept (fun _ _ h => nomatch h) fun target row htarget hrevokes => ?_
      rw [← hrevokes.1, hrow] at htarget
      cases htarget
    | some row =>
      have hserve : serve sha256 s (.rotate id actor random) =
          ((rotateCredential sha256 s row actor random).1,
            issuedResponse (rotateCredential sha256 s row actor random).2) := by
        simp only [serve, hrow]
      rcases rotateCredential_cases sha256 (s := s) row actor random with
        hfailed | ⟨c, issued, log, hissued, hfresh⟩
      · rw [hfailed] at hserve
        unfold step
        rw [hserve]
        refine .unissued fun target hrevokes => ?_
        obtain ⟨-, c, issued, hout⟩ := hrevokes
        rw [hserve] at hout
        cases hout
      · rw [hissued] at hserve
        unfold step
        rw [hserve]
        exact .rotated hrow hfresh
  | revoke id actor =>
    cases hrow : s.credential? id with
    | none =>
      have hserve : serve sha256 s (.revoke id actor) = (s, .notFound) := by simp only [serve, hrow]
      unfold step
      rw [hserve]
      refine .kept (fun _ _ h => nomatch h) fun target row htarget hrevokes => ?_
      rw [← show id = target from hrevokes, hrow] at htarget
      cases htarget
    | some row =>
      have hserve : serve sha256 s (.revoke id actor) = (revokeCredential s row actor, .done) := by
        simp only [serve, hrow]
      unfold step
      rw [hserve]
      exact .revoked hrow
  | resolve text =>
    obtain ⟨hstate, hout⟩ : step sha256 s (.resolve text) = (resolveCredential sha256 s text).1 ∧
        ∀ c issued, (serve sha256 s (.resolve text)).2 ≠ .issued c issued := by
      unfold step
      cases hresolve : resolveCredential sha256 s text with
      | mk s' out =>
        cases out with
        | ok credential =>
          have hserve : serve sha256 s (.resolve text) = (s', .resolved credential) := by
            simp only [serve, hresolve]
          rw [hserve]
          exact ⟨rfl, fun _ _ h => nomatch h⟩
        | error e =>
          have hserve : serve sha256 s (.resolve text) = (s', .raised e) := by simp only [serve, hresolve]
          rw [hserve]
          exact ⟨rfl, fun _ _ h => nomatch h⟩
    rw [hstate]
    rcases resolveCredential_fst sha256 (s := s) text with hsame | ⟨row, hrow, hsaved⟩
    · rw [hsame]
      exact .kept hout fun _ _ _ h => h
    · rw [hsaved]
      exact .used hrow hout
  | wait seconds => exact .kept (fun _ _ h => nomatch h) fun _ _ _ h => h

/-! ## A row over a run -/

theorem credential?_concat {s' : State} {rows : List ApplicationCredential} {c : ApplicationCredential}
    (h : s'.credentials = rows ++ [c]) (id : Uuid) :
    s'.credential? id =
      (rows.find? fun row => row.id = id).or (if c.id = id then some c else none) := by
  unfold State.credential?
  rw [h, List.find?_append]
  congr 1
  by_cases hid : c.id = id
  · simp [hid]
  · simp [hid]

/-- A row that is saved, seen under an id. -/
theorem credential?_of_save {id target : Uuid} {row found : ApplicationCredential}
    (saved : ApplicationCredential) (hrow : s.credential? id = some row) (hfound : s.credential? target = some found)
    (hid : saved.id = found.id) :
    (target = id ∧ found = row ∧ (s.save saved).credential? id = some saved) ∨
      (target ≠ id ∧ (s.save saved).credential? id = some row) := by
  rw [credential?_save, hrow, Option.map_some, hid, credential?_id hrow, credential?_id hfound]
  by_cases heq : target = id
  · subst heq
    rw [hfound, Option.some.injEq] at hrow
    exact .inl ⟨rfl, hrow, by rw [if_pos rfl]⟩
  · exact .inr ⟨heq, by rw [if_neg (Ne.symm heq)]⟩

/-- A row stays, and is revoked where it was or where the step revokes it. -/
theorem row_step (sha256 : Sha256) {id : Uuid} {row : ApplicationCredential} (hrow : s.credential? id = some row)
    (a : Action) :
    ∃ row', (step sha256 s a).credential? id = some row' ∧ Same row row' ∧
      (row'.revokedAt = none ↔ row.revokedAt = none ∧ ¬ Revokes sha256 s id a) := by
  have hchange := table_step sha256 (s := s) a
  generalize step sha256 s a = s' at hchange
  generalize hresponse : (serve sha256 s a).2 = response at hchange
  generalize htable : s'.credentials = rows at hchange
  have hfind : s'.credential? id = rows.find? fun row => row.id = id := by rw [← htable]; rfl
  cases hchange with
  | kept hout hnot => exact ⟨row, hfind.trans hrow, .rfl, by simp [hnot id row hrow]⟩
  | unissued hnot => exact ⟨row, hfind.trans hrow, .rfl, by simp [hnot id]⟩
  | @used text found out hfound hout =>
    have hnot : ¬ Revokes sha256 s id (.resolve text) := fun h => h
    rcases credential?_of_save { found with lastUsedAt := some s.now } hrow hfound rfl with
      ⟨-, rfl, hsaved⟩ | ⟨-, hsaved⟩
    · exact ⟨_, hfind.trans hsaved, ⟨rfl, rfl, rfl, rfl⟩, by simp [hnot]⟩
    · exact ⟨row, hfind.trans hsaved, .rfl, by simp [hnot]⟩
  | @issued serviceAccount actor expiresAt random c issued hfresh =>
    have hnot : ¬ Revokes sha256 s id (.issue serviceAccount actor expiresAt random) := fun h => h
    refine ⟨row, ?_, .rfl, by simp [hnot]⟩
    rw [credential?_concat htable, show s.credentials.find? _ = some row from hrow, Option.some_or]
  | @revoked target actor found hfound =>
    have hrevokes : Revokes sha256 s id (.revoke target actor) ↔ target = id := Iff.rfl
    rcases credential?_of_save { found with revokedAt := some s.now } hrow hfound rfl with
      ⟨heq, rfl, hsaved⟩ | ⟨hne, hsaved⟩
    · exact ⟨_, hfind.trans hsaved, ⟨rfl, rfl, rfl, rfl⟩, by simp [hrevokes.mpr heq]⟩
    · exact ⟨row, hfind.trans hsaved, .rfl, by simp [hrevokes, hne]⟩
  | @rotated target actor random found c issued hfound hfresh =>
    have hrevokes : Revokes sha256 s id (.rotate target actor random) ↔ target = id :=
      ⟨fun h => h.1, fun h => ⟨h, c, issued, hresponse⟩⟩
    rcases credential?_of_save { found with revokedAt := some s.now } hrow hfound rfl with
      ⟨heq, rfl, hsaved⟩ | ⟨hne, hsaved⟩
    · refine ⟨{ found with revokedAt := some s.now }, ?_, ⟨rfl, rfl, rfl, rfl⟩, by simp [hrevokes.mpr heq]⟩
      rw [credential?_concat htable, show List.find? _ _ = some _ from hsaved, Option.some_or]
    · refine ⟨row, ?_, .rfl, by simp [hrevokes, hne]⟩
      rw [credential?_concat htable, show List.find? _ _ = some row from hsaved, Option.some_or]

/-- What a call that returns a token leaves. -/
theorem issued_row {a : Action} {c : ApplicationCredential} {issued : List Char}
    (h : (serve sha256 s a).2 = .issued c issued) :
    s.credential? c.id = none ∧ (step sha256 s a).credential? c.id = some c ∧ c.revokedAt = none ∧
      c.id < 16 ^ 32 ∧
        ∃ secret, secret ≠ [] ∧ issued = token c.id secret ∧ c.secretHash = hashSecret sha256 secret := by
  have hchange := table_step sha256 (s := s) a
  rw [h] at hchange
  generalize step sha256 s a = s' at hchange
  generalize htable : s'.credentials = rows at hchange
  cases hchange with
  | kept hout => exact absurd rfl (hout c issued)
  | used hrow hout => exact absurd rfl (hout c issued)
  | issued hfresh =>
    refine ⟨hfresh.unused, ?_, hfresh.notRevoked, hfresh.id_lt, hfresh.token⟩
    rw [credential?_concat htable, show s.credentials.find? _ = none from hfresh.unused, Option.none_or,
      if_pos rfl]
  | rotated hrow hfresh =>
    refine ⟨?_, ?_, hfresh.notRevoked, hfresh.id_lt, hfresh.token⟩
    · have hunused := hfresh.unused
      rw [credential?_save, Option.map_eq_none_iff] at hunused
      exact hunused
    · rw [credential?_concat htable, show List.find? _ _ = none from hfresh.unused, Option.none_or,
        if_pos rfl]

/-- A row that was not there comes from a call that returned its token. -/
theorem row_source {id : Uuid} {a : Action} (hbefore : ¬ (s.credential? id).isSome = true)
    (hafter : ((step sha256 s a).credential? id).isSome = true) :
    ∃ c issued, (serve sha256 s a).2 = .issued c issued ∧ c.id = id := by
  have hnone : s.credential? id = none := by simpa using hbefore
  have hsaved : ∀ saved, (s.save saved).credential? id = none := by
    intro saved
    rw [credential?_save, hnone, Option.map_none]
  have hchange := table_step sha256 (s := s) a
  generalize step sha256 s a = s' at hchange hafter
  generalize hresponse : (serve sha256 s a).2 = response at hchange
  generalize htable : s'.credentials = rows at hchange
  have hfind : s'.credential? id = rows.find? fun row => row.id = id := by rw [← htable]; rfl
  have hconcat : ∀ {old : List ApplicationCredential} {c : ApplicationCredential},
      s'.credentials = old ++ [c] → (old.find? fun row => row.id = id) = none → c.id = id := by
    intro old c hold hmissing
    rw [credential?_concat hold, hmissing, Option.none_or] at hafter
    by_contra hne
    rw [if_neg hne] at hafter
    cases hafter
  cases hchange with
  | kept =>
    rw [hfind, show s.credentials.find? _ = none from hnone] at hafter
    cases hafter
  | unissued =>
    rw [hfind, show s.credentials.find? _ = none from hnone] at hafter
    cases hafter
  | used hrow =>
    rw [hfind, show List.find? _ _ = none from hsaved _] at hafter
    cases hafter
  | issued hfresh => exact ⟨_, _, rfl, hconcat htable hnone⟩
  | revoked hrow =>
    rw [hfind, show List.find? _ _ = none from hsaved _] at hafter
    cases hafter
  | rotated hrow hfresh => exact ⟨_, _, rfl, hconcat htable (hsaved _)⟩

/-- A row over a run: it stays, and is revoked where it was or where some step revokes it. -/
theorem row_run (sha256 : Sha256) {id : Uuid} {row : ApplicationCredential} (hrow : s.credential? id = some row)
    (as : List Action) :
    ∃ row', (run (step sha256) s as).credential? id = some row' ∧ Same row row' ∧
      (row'.revokedAt = none ↔ row.revokedAt = none ∧
        Always (step sha256) (fun s a => ¬ Revokes sha256 s id a) s as) := by
  induction as generalizing s row with
  | nil => exact ⟨row, hrow, .rfl, by simp⟩
  | cons a as ih =>
    obtain ⟨middle, hmiddle, hsame, hrevoked⟩ := row_step sha256 hrow a
    obtain ⟨row', hrow', hsame', hrevoked'⟩ := ih hmiddle
    refine ⟨row', hrow', hsame.trans hsame', ?_⟩
    rw [hrevoked', hrevoked, always_cons, and_assoc]

/-! ## Resolution -/

/-- The state after the calls. -/
def after (sha256 : Sha256) (now : Nat) (as : List Action) : State := run (step sha256) (start now) as

/-- Some call returned the text as a token of `c`, up to the spelling of the UUID; no call since has revoked
the credential, and it has not expired. -/
def Accepted (sha256 : Sha256) (now : Nat) (as : List Action) (text : List Char)
    (c : ApplicationCredential) : Prop :=
  ∃ before a since issued, as = before ++ a :: since ∧
    (serve sha256 (after sha256 now before) a).2 = .issued c issued ∧ SameToken text c.id issued ∧
      Always (step sha256) (fun s a => ¬ Revokes sha256 s c.id a) (after sha256 now (before ++ [a])) since ∧
        c.expiresAt.any (· ≤ (after sha256 now as).now) = false

theorem hashed_step (hs : Hashed s) (a : Action) : Hashed (step sha256 s a) := by
  have hsaved : ∀ target row (saved : ApplicationCredential), s.credential? target = some row →
      saved.secretHash = row.secretHash → Hashed (s.save saved) := by
    intro target row saved hrow hsame x hx
    obtain ⟨y, hy, rfl⟩ := List.mem_map.mp hx
    split
    · rw [hsame]
      exact hs row (List.mem_of_find?_eq_some hrow)
    · exact hs y hy
  have hconcat : ∀ {s' : State} {c : ApplicationCredential} {issued : List Char}, Hashed s' →
      FreshCredential sha256 s' c issued →
        ∀ row ∈ s'.credentials ++ [c], ∃ b, row.secretHash = hexOfBytes b := by
    intro s' c issued hs' hfresh row hrow
    rcases List.mem_append.mp hrow with hrow | hrow
    · exact hs' row hrow
    · obtain ⟨secret, -, -, hhash⟩ := hfresh.token
      rw [List.mem_singleton.mp hrow, hhash]
      exact ⟨_, rfl⟩
  have hchange := table_step sha256 (s := s) a
  unfold Hashed
  generalize (step sha256 s a).credentials = rows at hchange
  generalize (serve sha256 s a).2 = response at hchange
  cases hchange with
  | kept => exact hs
  | unissued => exact hs
  | used hrow => exact hsaved _ _ _ hrow rfl
  | issued hfresh => exact hconcat hs hfresh
  | revoked hrow => exact hsaved _ _ _ hrow rfl
  | rotated hrow hfresh => exact hconcat (hsaved _ _ _ hrow rfl) hfresh

/-- A token resolves exactly where it is accepted, to its credential, and any other raises
`InvalidCredential`. -/
theorem resolveCredential_iff {sha256 : Sha256} (hsha : Function.Injective sha256) (now : Nat)
    (as : List Action) (text : List Char) :
    (∀ c, Accepted sha256 now as text c → ∃ row, (after sha256 now as).credential? c.id = some row ∧
        Same c row ∧ (resolveCredential sha256 (after sha256 now as) text).2 =
          .ok { row with lastUsedAt := some (after sha256 now as).now }) ∧
      ((¬ ∃ c, Accepted sha256 now as text c) →
        ∃ message, (resolveCredential sha256 (after sha256 now as) text).2 = .error (.invalid message)) := by
  have hhashed : Hashed (after sha256 now as) :=
    run_invariant_of_forall (I := Hashed) (fun s a hs => hashed_step hs a)
      (fun _ h => absurd h List.not_mem_nil) as
  have hsplit : ∀ before a since,
      after sha256 now (before ++ a :: since) = run (step sha256) (after sha256 now (before ++ [a])) since := by
    intro before a since
    unfold after
    rw [← run_append, List.append_assoc, List.singleton_append]
  have hnext : ∀ before a, after sha256 now (before ++ [a]) = step sha256 (after sha256 now before) a :=
    fun before a => run_append before [a]
  constructor
  · rintro c ⟨before, a, since, issued, rfl, hissued, ⟨secret, htoken, hspells⟩, hnever, hexpired⟩
    obtain ⟨-, hrow, hrevoked, hid, secret', hne, htoken', hhash⟩ := issued_row hissued
    have hsecret : secret = secret' := by
      rw [htoken'] at htoken
      exact (List.cons.inj (List.append_cancel_left htoken)).2.symm
    subst hsecret
    rw [← hnext] at hrow
    obtain ⟨row, hrow', hsame, hrevoked'⟩ := row_run sha256 hrow since
    rw [← hsplit] at hrow'
    refine ⟨row, hrow', hsame, ?_⟩
    rw [resolveCredential_ok_iff]
    refine ⟨c.id, secret, row, hspells, hne, hrow', ⟨hrevoked'.mpr ⟨hrevoked, hnever⟩, ?_⟩, ?_, rfl⟩
    · rw [hsame.expiresAt]
      exact hexpired
    · rw [hsame.secretHash, hhash, hashSecret, compareDigest_hash, beq_self_eq_true]
  · intro hnone
    cases hout : (resolveCredential sha256 (after sha256 now as) text).2 with
    | error e =>
      obtain ⟨message, rfl⟩ := resolveCredential_error hhashed hout
      exact ⟨message, rfl⟩
    | ok c =>
      obtain ⟨id, secret, row, hspells, -, hrow, ⟨hrevoked, hexpired⟩, hhash, -⟩ :=
        (resolveCredential_ok_iff text c).mp hout
      -- the row goes back to a call, and what the calls since have done to it is in the row
      obtain ⟨before, a, since, rfl, -, ⟨fresh, issued, hissued, hid⟩, -⟩ :=
        @made_of_run _ _ (step sha256) (start now) (fun _ => True)
          (fun s => (s.credential? id).isSome = true) _ (fun _ _ _ => trivial)
          (fun _ _ _ => row_source) trivial (by simp [start, State.credential?]) as
          (by rw [show run (step sha256) (start now) as = after sha256 now as from rfl, hrow]; rfl)
      subst hid
      obtain ⟨-, hfresh, -, -, secret', -, htoken, hhash'⟩ := issued_row hissued
      rw [← show after sha256 now before = run (step sha256) (start now) before from rfl, ← hnext] at hfresh
      obtain ⟨row', hrow', hsame, hrevoked'⟩ := row_run sha256 hfresh since
      rw [← hsplit, hrow, Option.some.injEq] at hrow'
      subst hrow'
      have hsecret : secret' = secret := by
        rw [hsame.secretHash, hhash', hashSecret, hashSecret, compareDigest_hash, Option.some.injEq,
          beq_iff_eq] at hhash
        exact hashSecret_injective hsha hhash
      subst hsecret
      refine absurd ⟨fresh, before, a, since, issued, rfl, hissued, ⟨secret', htoken, hspells⟩,
        (hrevoked'.mp hrevoked).2, ?_⟩ hnone
      rw [← hsame.expiresAt]
      exact hexpired

/-- A function without collisions that is SHA-256 on the secret of 43 letters `A`. -/
def shaOfZeros : Sha256 := fun bytes =>
  if bytes = List.replicate 43 65 then
    [15, 0, 115, 133, 182, 249, 212, 183, 238, 178, 116, 134, 5, 175, 225, 169,
      132, 160, 163, 191, 163, 240, 20, 208, 158, 42, 120, 76, 233, 229, 205, 26]
  else 0 :: bytes

theorem shaOfZeros_injective : Function.Injective shaOfZeros := by
  intro x y h
  unfold shaOfZeros at h
  by_cases hx : x = List.replicate 43 65
  · by_cases hy : y = List.replicate 43 65
    · rw [hx, hy]
    · rw [if_pos hx, if_neg hy] at h
      exact absurd (List.cons.inj h).1 (by decide)
  · by_cases hy : y = List.replicate 43 65
    · rw [if_neg hx, if_pos hy] at h
      exact absurd (List.cons.inj h).1 (by decide)
    · rw [if_neg hx, if_neg hy] at h
      exact (List.cons.inj h).2

/-- One credential is issued. -/
def issuedOnce : List Action := [.issue ⟨3, 1⟩ 7 none ⟨0, 0⟩]

/-- The token with its UUID in hyphens is accepted as well. -/
theorem resolveCredential_iff_hyphens :
    ∃ row : ApplicationCredential, (resolveCredential shaOfZeros (after shaOfZeros 1000 issuedOnce)
        (TOKEN_PREFIX ++ uuidText (uuid4 0) ++ '.' :: tokenUrlsafe 0)).2 =
      .ok { row with lastUsedAt := some 1000 } ∧ row.id = uuid4 0 := by
  have haccepted : Accepted shaOfZeros 1000 issuedOnce
      (TOKEN_PREFIX ++ uuidText (uuid4 0) ++ '.' :: tokenUrlsafe 0)
      { id := uuid4 0, serviceAccount := ⟨3, 1⟩, secretHash := hashSecret shaOfZeros (tokenUrlsafe 0),
        createdBy := some 7, createdAt := 1000 } := by
    refine ⟨[], _, [], _, rfl, rfl, ⟨_, rfl, _, rfl, ?_, parseUuid?_uuidText (uuid4_lt 0)⟩, trivial, rfl⟩
    decide
  obtain ⟨row, -, hsame, hresolved⟩ :=
    (resolveCredential_iff shaOfZeros_injective 1000 issuedOnce _).1 _ haccepted
  exact ⟨row, hresolved, hsame.id⟩

end Applications
