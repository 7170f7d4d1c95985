import IntraCloud.Accounts.Totp
import IntraCloud.Audit.Record
import IntraCloud.Python.Codecs

/-!
# Credentials of service accounts

`applications/services.py`: issuing, rotating and revoking credentials, and resolving a bearer token. The
random numbers a call draws are its arguments, SHA-256 is a parameter.
-/

namespace Applications

open Audit Python

/-- SHA-256 as bytes. -/
abbrev Sha256 := Bytes → Bytes

/-- `TOKEN_PREFIX`. -/
def TOKEN_PREFIX : List Char := "pdc_sk_".toList

/-- `uuid.uuid4()`: random bits but for the version and the variant. -/
def uuid4 (random : Nat) : Nat :=
  random / 1208925819614629174706176 % 281474976710656 * 1208925819614629174706176 +
    4 * 75557863725914323419136 + random / 18446744073709551616 % 4096 * 18446744073709551616 +
    2 * 4611686018427387904 + random % 4611686018427387904

/-- A digit of URL-safe Base64. -/
def urlsafeDigit (n : Nat) : Char :=
  "ABCDEFGHIJKLMNOPQRSTUVWXYZabcdefghijklmnopqrstuvwxyz0123456789-_".toList.getD (n % 64) 'A'

/-- The last `width` digits of a number in URL-safe Base64. -/
def urlsafeText : (width : Nat) → Nat → List Char
  | 0, _ => []
  | width + 1, n => urlsafeText width (n / 64) ++ [urlsafeDigit n]

/-- `secrets.token_urlsafe(32)`: 256 bits and two zeros, without the padding. -/
def tokenUrlsafe (random : Nat) : List Char := urlsafeText 43 (4 * random)

/-- What a call draws. -/
structure Random where
  id : Nat
  secret : Nat
  deriving DecidableEq, Repr

/-- A row of `ServiceAccount`, with the organization of its application. -/
structure ServiceAccount where
  id : Uuid
  organization : Uuid
  deriving DecidableEq, Repr

/-- A row of `ApplicationCredential`. -/
structure ApplicationCredential where
  id : Uuid
  serviceAccount : ServiceAccount
  secretHash : List Char
  createdBy : Option Uuid
  createdAt : Nat
  lastUsedAt : Option Nat := none
  expiresAt : Option Nat := none
  revokedAt : Option Nat := none
  deriving DecidableEq, Repr

/-- The credentials, the clock and the log. -/
structure State where
  now : Nat
  credentials : List ApplicationCredential
  auditLog : List AuditEvent
  deriving DecidableEq, Repr

/-- What a call raises: `InvalidCredential`, the error of a duplicate key, or the `TypeError` of a
comparison. -/
inductive CredentialError where
  | invalid (message : String)
  | integrity
  | typeError
  deriving DecidableEq, Repr

namespace State

/-- `ApplicationCredential.objects.get(id=...)`. -/
def credential? (s : State) (id : Uuid) : Option ApplicationCredential :=
  s.credentials.find? fun c => c.id = id

/-- `credential.save(...)`. -/
def save (s : State) (credential : ApplicationCredential) : State :=
  { s with credentials := s.credentials.map fun c => if c.id = credential.id then credential else c }

/-- `audit.record`. These events have fixed names and no request id, so each fits its columns. -/
def record (s : State) (e : AuditEvent) : State := { s with auditLog := s.auditLog ++ [e] }

end State

/-- `_hash_secret`. -/
def hashSecret (sha256 : Sha256) (secret : List Char) : List Char := hexOfBytes (sha256 (utf8Encode secret))

/-- The token of a credential. -/
def token (id : Uuid) (secret : List Char) : List Char := TOKEN_PREFIX ++ hexText 32 id ++ '.' :: secret

/-- `issue_credential`. -/
def issueCredential (sha256 : Sha256) (s : State) (serviceAccount : ServiceAccount) (actor : Uuid)
    (expiresAt : Option Nat) (random : Random) :
    State × Except CredentialError (ApplicationCredential × List Char) :=
  let secret := tokenUrlsafe random.secret
  let credential : ApplicationCredential :=
    { id := uuid4 random.id, serviceAccount := serviceAccount, secretHash := hashSecret sha256 secret,
      createdBy := some actor, createdAt := s.now, expiresAt := expiresAt }
  if s.credentials.any fun c => c.id = credential.id || c.secretHash = credential.secretHash then
    (s, .error .integrity)
  else
    ({ s with credentials := s.credentials ++ [credential] }.record
        { actor := some actor, organization := some serviceAccount.organization,
          action := "application.credentials.create", resourceType := "application_credential",
          resourceId := some credential.id },
      .ok (credential, token credential.id secret))

/-- `revoke_credential`. -/
def revokeCredential (s : State) (credential : ApplicationCredential) (actor : Uuid) : State :=
  (s.save { credential with revokedAt := some s.now }).record
    { actor := some actor, organization := some credential.serviceAccount.organization,
      action := "application.credentials.revoke", resourceType := "application_credential",
      resourceId := some credential.id }

/-- `rotate_credential`: a replacement that cannot be issued undoes the revocation. -/
def rotateCredential (sha256 : Sha256) (s : State) (credential : ApplicationCredential) (actor : Uuid)
    (random : Random) : State × Except CredentialError (ApplicationCredential × List Char) :=
  match issueCredential sha256 (revokeCredential s credential actor) credential.serviceAccount actor none
      random with
  | (_, .error e) => (s, .error e)
  | (s, .ok (replacement, token)) =>
    (s.record { actor := some actor, organization := some credential.serviceAccount.organization,
                action := "application.credentials.rotate", resourceType := "application_credential",
                resourceId := some replacement.id, context := [("replaced", .uuid credential.id)] },
      .ok (replacement, token))

/-- `resolve_credential`. -/
def resolveCredential (sha256 : Sha256) (s : State) (token : List Char) :
    State × Except CredentialError ApplicationCredential :=
  if ¬ TOKEN_PREFIX.isPrefixOf token then (s, .error (.invalid "unrecognized token format"))
  else
    let remainder := token.drop TOKEN_PREFIX.length
    let idPart := remainder.takeWhile (· ≠ '.')
    let secret := (remainder.dropWhile (· ≠ '.')).drop 1
    if secret = [] then (s, .error (.invalid "unrecognized token format"))
    else
      match parseUuid? idPart with
      | none => (s, .error (.invalid "unrecognized token format"))
      | some id =>
        match s.credential? id with
        | none => (s, .error (.invalid "unknown credential"))
        | some credential =>
          if credential.revokedAt ≠ none then (s, .error (.invalid "credential revoked"))
          else if credential.expiresAt.any (· ≤ s.now) then (s, .error (.invalid "credential expired"))
          else
            match Accounts.compareDigest credential.secretHash (hashSecret sha256 secret) with
            | none => (s, .error .typeError)
            | some false => (s, .error (.invalid "invalid credential"))
            | some true =>
              let credential := { credential with lastUsedAt := some s.now }
              (s.save credential, .ok credential)

/-! ## The system -/

/-- A call, or the passing of time. A credential is revoked or rotated by its id. -/
inductive Action where
  | issue (serviceAccount : ServiceAccount) (actor : Uuid) (expiresAt : Option Nat) (random : Random)
  | rotate (id actor : Uuid) (random : Random)
  | revoke (id actor : Uuid)
  | resolve (token : List Char)
  | wait (seconds : Nat)
  deriving DecidableEq, Repr

/-- What a call comes to. -/
inductive Response where
  | issued (credential : ApplicationCredential) (token : List Char)
  | resolved (credential : ApplicationCredential)
  | done
  | notFound
  | raised (e : CredentialError)
  deriving DecidableEq, Repr

/-- The response to a call that returns a credential and its token. -/
def issuedResponse : Except CredentialError (ApplicationCredential × List Char) → Response
  | .ok (credential, token) => .issued credential token
  | .error e => .raised e

/-- The state after an action and what it comes to. -/
def serve (sha256 : Sha256) (s : State) : Action → State × Response
  | .issue serviceAccount actor expiresAt random =>
    let out := issueCredential sha256 s serviceAccount actor expiresAt random
    (out.1, issuedResponse out.2)
  | .rotate id actor random =>
    match s.credential? id with
    | none => (s, .notFound)
    | some credential =>
      let out := rotateCredential sha256 s credential actor random
      (out.1, issuedResponse out.2)
  | .revoke id actor =>
    match s.credential? id with
    | none => (s, .notFound)
    | some credential => (revokeCredential s credential actor, .done)
  | .resolve token =>
    match resolveCredential sha256 s token with
    | (s, .ok credential) => (s, .resolved credential)
    | (s, .error e) => (s, .raised e)
  | .wait seconds => ({ s with now := s.now + seconds }, .done)

/-- One step. -/
def step (sha256 : Sha256) (s : State) (a : Action) : State := (serve sha256 s a).1

/-- Before the first credential is issued. -/
def start (now : Nat) : State := { now := now, credentials := [], auditLog := [] }

end Applications
