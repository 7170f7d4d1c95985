import IntraCloud.Accounts.Totp
import IntraCloud.Audit.Record
import Mathlib.Logic.Function.Basic

/-!
# Accounts and their second factor

`accounts/services.py` on the rows of `User`. Fernet gives back what it encrypted, so the secret stands
in a row as it is; a password stands for its hash.
-/

namespace Accounts

open Audit

/-- A row of `User`, without the names. -/
structure User where
  id : Uuid
  email : List Char
  password : List Char
  isActive : Bool := true
  mfaEnabled : Bool := false
  /-- `mfa_secret_encrypted`. -/
  mfaSecret : Option Secret := none
  mfaConfirmedAt : Option Nat := none
  deriving DecidableEq, Repr

/-- What a session holds: the user Django logged in, `mfa_pending_user_id`, and the `set_expiry` value
in place of the global policy. -/
structure Session where
  user : Option Uuid := none
  pending : Option Uuid := none
  expiry : Option Nat := none
  deriving DecidableEq, Repr

/-- The accounts, the sessions by their number, and the log. -/
structure State where
  now : Nat
  users : List User
  sessions : Nat → Session
  auditLog : List AuditEvent
  nextUuid : Nat

namespace State

/-- `User.objects.get(id=...)`. -/
def user? (s : State) (id : Uuid) : Option User := s.users.find? fun u => u.id = id

/-- `User.objects.get(id=..., is_active=True)`. -/
def activeUser? (s : State) (id : Uuid) : Option User := (s.user? id).filter (·.isActive)

/-- `user.save(...)`. -/
def saveUser (s : State) (user : User) : State :=
  { s with users := s.users.map fun u => if u.id = user.id then user else u }

/-- `audit.record`. These events have fixed names and no request id, so each fits its columns. -/
def record (s : State) (e : AuditEvent) : State := { s with auditLog := s.auditLog ++ [e] }

/-- The session saved at the end of a request. -/
def saveSession (s : State) (k : Nat) (session : Session) : State :=
  { s with sessions := Function.update s.sessions k session }

end State

/-- What a service raises: an `MFAError`, or an exception nothing catches. -/
inductive ServiceError where
  | mfa (message : String)
  | uncaught
  deriving DecidableEq, Repr

/-- `start_mfa_enrollment`, with the secret drawn. -/
def startMfaEnrollment (s : State) (user : User) (secret : Secret) : State :=
  s.saveUser { user with mfaSecret := some secret, mfaEnabled := false, mfaConfirmedAt := none }

/-- `confirm_mfa_enrollment`. -/
def confirmMfaEnrollment (hmac : Hmac) (s : State) (user : User) (code : List Char) :
    Except ServiceError State :=
  match user.mfaSecret with
  | none => .error (.mfa "no MFA enrollment in progress")
  | some secret =>
    match verifyTotp hmac secret code s.now with
    | none => .error .uncaught
    | some false => .error (.mfa "invalid code")
    | some true =>
      .ok ((s.saveUser { user with mfaEnabled := true, mfaConfirmedAt := some s.now }).record
        { actor := some user.id, organization := none, action := "mfa.enable",
          resourceType := "user", resourceId := some user.id })

/-- `disable_mfa`. -/
def disableMfa (hmac : Hmac) (s : State) (user : User) (code : List Char) : Except ServiceError State :=
  match user.mfaEnabled, user.mfaSecret with
  | false, _ | true, none => .error (.mfa "MFA is not enabled")
  | true, some secret =>
    match verifyTotp hmac secret code s.now with
    | none => .error .uncaught
    | some false => .error (.mfa "invalid code")
    | some true =>
      .ok ((s.saveUser { user with mfaEnabled := false, mfaSecret := none,
                                   mfaConfirmedAt := none }).record
        { actor := some user.id, organization := none, action := "mfa.disable",
          resourceType := "user", resourceId := some user.id })

/-- `verify_mfa_code`, `none` where it raises. -/
def verifyMfaCode (hmac : Hmac) (user : User) (code : List Char) (now : Nat) : Option Bool :=
  match user.mfaEnabled, user.mfaSecret with
  | true, some secret => verifyTotp hmac secret code now
  | _, _ => some false

end Accounts
