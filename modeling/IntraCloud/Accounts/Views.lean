import IntraCloud.Accounts.Services

/-!
# The authentication endpoints

`accounts/views.py` over any number of sessions. A request names the session its cookie belongs to; a
throttled request, or one without its CSRF token, changes nothing and is left out. `request.session` is
saved at the end of a request unless the response is a 500.
-/

namespace Accounts

open Audit Python

/-- What lies outside: HMAC-SHA1, the `UPPER` of PostgreSQL by which `iexact` compares, `EmailValidator`, and
the password validators. -/
structure Django where
  hmac : Hmac
  upper : List Char → List Char
  validEmail : List Char → Bool
  validPassword : List Char → Bool

/-- `MFA_PENDING_SESSION_TIMEOUT_SECONDS`. -/
def MFA_PENDING_SESSION_TIMEOUT_SECONDS : Nat := 300

/-- The fields of `UserSerializer`. -/
structure UserData where
  id : Uuid
  email : List Char
  mfaEnabled : Bool
  deriving DecidableEq, Repr

/-- `UserSerializer`. -/
def User.data (user : User) : UserData := ⟨user.id, user.email, user.mfaEnabled⟩

/-- The responses. The provisioning URI is made of the secret and the account's name. -/
inductive Response where
  | ok (user : UserData)
  | created (user : UserData)
  | enrolled (secret : Secret) (accountName : List Char)
  | mfaRequired
  | noContent
  | invalid
  | badRequest (detail : String)
  | unauthorized (detail : String)
  | forbidden
  | serverError
  deriving DecidableEq, Repr

/-! ## Serializers -/

/-- The text of a `CharField` after trimming, unless a null character stands in it. -/
def charField (text : List Char) : Option (List Char) :=
  if (strip text).contains '\x00' then none else some (strip text)

/-- `BaseUserManager.normalize_email`. -/
def normalizeEmail (email : List Char) : List Char :=
  let domain := (email.reverse.takeWhile (· ≠ '@')).reverse
  if email.contains '@' then email.take (email.length - domain.length) ++ lower domain else email

/-- `RegisterSerializer`: the normalized address and the password. -/
def registerSerializer (d : Django) (s : State) (email password : List Char) :
    Option (List Char × List Char) :=
  match charField email, charField password with
  | some email, some password =>
    let normalized := normalizeEmail email
    if d.validEmail email && !(s.users.any fun u => d.upper u.email = d.upper normalized) &&
        password ≠ [] && d.validPassword password
    then some (normalized, password) else none
  | _, _ => none

/-- `LoginSerializer`. The password is not trimmed. -/
def loginSerializer (d : Django) (email password : List Char) : Option (List Char × List Char) :=
  match charField email with
  | some email =>
    if d.validEmail email && password ≠ [] && !password.contains '\x00' then some (email, password)
    else none
  | none => none

/-- `MFACodeSerializer`. -/
def mfaCodeSerializer (code : List Char) : Option (List Char) :=
  (charField code).filter fun code => code.length = DIGITS

/-! ## Django's sessions -/

/-- `authenticate`: `ModelBackend` accepts active users only. -/
def authenticate (s : State) (email password : List Char) : Option User :=
  (s.users.find? fun u => u.email = email).filter fun u => u.password = password && u.isActive

/-- `login`: the session of another user is flushed, any other keeps its data under a new key. Nothing
changes a password, so the hash that the session carries is the user's. -/
def login (session : Session) (user : User) : Session :=
  if session.user.any (· ≠ user.id) then { user := some user.id }
  else { session with user := some user.id }

/-- `request.user`: the session's user if active, else the one a service account's token stands for. -/
def requester (s : State) (k : Nat) (bearer : Option Uuid) : Option User :=
  ((s.sessions k).user.bind s.activeUser?).or (bearer.bind s.user?)

/-! ## Views -/

/-- `RegisterView.post`. -/
def registerView (d : Django) (s : State) (k : Nat) (email password : List Char) : State × Response :=
  match registerSerializer d s email password with
  | none => (s, .invalid)
  | some (email, password) =>
    let user : User := { id := s.nextUuid, email := email, password := password }
    let s := { s with users := s.users ++ [user], nextUuid := s.nextUuid + 1 }
    (s.saveSession k (login (s.sessions k) user), .created user.data)

/-- `LoginView.post`. -/
def loginView (d : Django) (s : State) (k : Nat) (email password : List Char) : State × Response :=
  match loginSerializer d email password with
  | none => (s, .invalid)
  | some (email, password) =>
    match authenticate s email password with
    | none =>
      (s.record { actor := none, organization := none, action := "auth.login", result := .denied,
                  context := [("email", .str (String.ofList email))] },
        .unauthorized "Invalid credentials.")
    | some user =>
      if user.mfaEnabled then
        (s.saveSession k { s.sessions k with pending := some user.id,
                                             expiry := some MFA_PENDING_SESSION_TIMEOUT_SECONDS },
          .mfaRequired)
      else
        ((s.saveSession k (login (s.sessions k) user)).record
          { actor := some user.id, organization := none, action := "auth.login" }, .ok user.data)

/-- `MFALoginVerifyView.post`. -/
def mfaLoginVerifyView (d : Django) (s : State) (k : Nat) (code : List Char) : State × Response :=
  match (s.sessions k).pending with
  | none => (s, .badRequest "No MFA login in progress.")
  | some pendingId =>
    match mfaCodeSerializer code with
    | none => (s, .invalid)
    | some code =>
      match s.activeUser? pendingId with
      | none =>
        (s.saveSession k { s.sessions k with pending := none }, .unauthorized "Invalid credentials.")
      | some user =>
        match verifyMfaCode d.hmac user code s.now with
        | none => (s, .serverError)
        | some false =>
          (s.record { actor := some user.id, organization := none, action := "auth.mfa_verify",
                      result := .denied }, .unauthorized "Invalid code.")
        | some true =>
          ((s.saveSession k (login { s.sessions k with pending := none } user)).record
            { actor := some user.id, organization := none, action := "auth.login" }, .ok user.data)

/-- `LogoutView.post`: `logout` flushes the session. -/
def logoutView (s : State) (k : Nat) (bearer : Option Uuid) : State × Response :=
  match requester s k bearer with
  | none => (s, .forbidden)
  | some user =>
    ((s.record { actor := some user.id, organization := none, action := "auth.logout" }).saveSession k {},
      .noContent)

/-- `MFAEnrollView.post`. -/
def mfaEnrollView (s : State) (k : Nat) (bearer : Option Uuid) (secret : Secret) : State × Response :=
  match requester s k bearer with
  | none => (s, .forbidden)
  | some user => (startMfaEnrollment s user secret, .enrolled secret user.email)

/-- `MFAConfirmView.post` and `MFADisableView.post`: a service that takes a code of the requester. -/
def mfaCodeView (service : State → User → List Char → Except ServiceError State) (mfaEnabled : Bool)
    (s : State) (k : Nat) (bearer : Option Uuid) (code : List Char) : State × Response :=
  match requester s k bearer with
  | none => (s, .forbidden)
  | some user =>
    match mfaCodeSerializer code with
    | none => (s, .invalid)
    | some code =>
      match service s user code with
      | .error (.mfa message) => (s, .badRequest message)
      | .error .uncaught => (s, .serverError)
      | .ok s => (s, .ok { user with mfaEnabled := mfaEnabled }.data)

/-- `MFAConfirmView.post`. -/
def mfaConfirmView (d : Django) : State → Nat → Option Uuid → List Char → State × Response :=
  mfaCodeView (confirmMfaEnrollment d.hmac) true

/-- `MFADisableView.post`. -/
def mfaDisableView (d : Django) : State → Nat → Option Uuid → List Char → State × Response :=
  mfaCodeView (disableMfa d.hmac) false

/-! ## The system -/

/-- A request on a session, or what else happens: time passes, a session runs out or loses its cookie,
the lock of an account is set. -/
inductive Action where
  | register (k : Nat) (email password : List Char)
  | login (k : Nat) (email password : List Char)
  | mfaVerify (k : Nat) (code : List Char)
  | logout (k : Nat) (bearer : Option Uuid)
  | mfaEnroll (k : Nat) (bearer : Option Uuid) (secret : Secret)
  | mfaConfirm (k : Nat) (bearer : Option Uuid) (code : List Char)
  | mfaDisable (k : Nat) (bearer : Option Uuid) (code : List Char)
  | wait (seconds : Nat)
  | endSession (k : Nat)
  | setActive (user : Uuid) (active : Bool)
  deriving DecidableEq, Repr

/-- The state after an action and the response to it. -/
def serve (d : Django) (s : State) : Action → State × Response
  | .register k email password => registerView d s k email password
  | .login k email password => loginView d s k email password
  | .mfaVerify k code => mfaLoginVerifyView d s k code
  | .logout k bearer => logoutView s k bearer
  | .mfaEnroll k bearer secret => mfaEnrollView s k bearer secret
  | .mfaConfirm k bearer code => mfaConfirmView d s k bearer code
  | .mfaDisable k bearer code => mfaDisableView d s k bearer code
  | .wait seconds => ({ s with now := s.now + seconds }, .noContent)
  | .endSession k => (s.saveSession k {}, .noContent)
  | .setActive id active =>
    ({ s with users := s.users.map fun u => if u.id = id then { u with isActive := active } else u },
      .noContent)

/-- One step. -/
def step (d : Django) (s : State) (a : Action) : State := (serve d s a).1

/-- The accounts before anyone has opened a session. -/
def opened (now : Nat) (users : List User) (nextUuid : Nat) : State :=
  { now := now, users := users, sessions := fun _ => {}, auditLog := [], nextUuid := nextUuid }

end Accounts
