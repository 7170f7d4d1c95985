import IntraCloud.Accounts.Views
import IntraCloud.Transition.Proofs.RunsProofs

/-!
# What turns the second factor off

`disable_mfa` asks for a code, `start_mfa_enrollment` does not: a request to enroll once more from an
account that is already protected leaves it unprotected. That is the only way around the code.
-/

namespace Accounts

open Transition

variable {d : Django} {s : State}

/-- The code that an action carries. -/
def Action.code? : Action → Option (List Char)
  | .mfaVerify _ code | .mfaConfirm _ _ code | .mfaDisable _ _ code => some code
  | _ => none

/-- The code is valid now for the secret that the account has. -/
def ValidCode (d : Django) (s : State) (user : User) (code : List Char) : Prop :=
  ∃ secret trimmed, user.mfaSecret = some secret ∧ mfaCodeSerializer code = some trimmed ∧
    verifyTotp d.hmac secret trimmed s.now = some true

/-- An account loses its second factor only in a step that carries a valid code of it. -/
def StrippedByCode (d : Django) (s : State) (a : Action) : Prop :=
  ∀ id user after, s.user? id = some user → user.mfaEnabled = true →
    (step d s a).user? id = some after → after.mfaEnabled = false →
      ∃ code, a.code? = some code ∧ ValidCode d s user code

/-- No one enrolls whose second factor is on. -/
def NotReenrolling (s : State) : Action → Prop
  | .mfaEnroll k bearer _ => ∀ user, requester s k bearer = some user → user.mfaEnabled = false
  | _ => True

/-! ## Accounts after a step -/

theorem user?_id {id : Uuid} {user : User} (h : s.user? id = some user) : user.id = id := by
  simpa using List.find?_some h

theorem user?_map (f : User → User) (hf : ∀ u, (f u).id = u.id) (id : Uuid) :
    ({ s with users := s.users.map f } : State).user? id = (s.user? id).map f := by
  unfold State.user?
  rw [List.find?_map]
  congr 2
  funext u
  simp [hf]

theorem user?_saveUser (user : User) (id : Uuid) :
    (s.saveUser user).user? id = (s.user? id).map fun u => if u.id = user.id then user else u := by
  unfold State.saveUser
  rw [user?_map]
  intro u
  by_cases hu : u.id = user.id
  · rw [if_pos hu, hu]
  · rw [if_neg hu]

@[simp] theorem user?_record (e : Audit.AuditEvent) (id : Uuid) : (s.record e).user? id = s.user? id := rfl

@[simp] theorem user?_saveSession (k : Nat) (session : Session) (id : Uuid) :
    (s.saveSession k session).user? id = s.user? id := rfl

/-- Whoever makes a request has a row. -/
theorem user?_of_requester {k : Nat} {bearer : Option Uuid} {user : User}
    (h : requester s k bearer = some user) : s.user? user.id = some user := by
  unfold requester at h
  rcases Option.or_eq_some_iff.mp h with h | ⟨-, h⟩
  · obtain ⟨id, -, hid⟩ := Option.bind_eq_some_iff.mp h
    have hrow : s.user? id = some user := (Option.filter_eq_some_iff.mp hid).1
    rw [user?_id hrow]
    exact hrow
  · obtain ⟨id, -, hid⟩ := Option.bind_eq_some_iff.mp h
    rw [user?_id hid]
    exact hid

/-- What a step does to an account that exists: nothing to its factor, or one of the three services. -/
inductive FactorChange (d : Django) (s : State) (user : User) : Action → User → Prop where
  | kept {a after} (h : after.mfaEnabled = user.mfaEnabled) : FactorChange d s user a after
  | enrolled {k bearer secret} (h : requester s k bearer = some user) :
    FactorChange d s user (.mfaEnroll k bearer secret)
      { user with mfaSecret := some secret, mfaEnabled := false, mfaConfirmedAt := none }
  | confirmed {k bearer code} :
    FactorChange d s user (.mfaConfirm k bearer code)
      { user with mfaEnabled := true, mfaConfirmedAt := some s.now }
  | disabled {k bearer code} (h : ValidCode d s user code) :
    FactorChange d s user (.mfaDisable k bearer code)
      { user with mfaEnabled := false, mfaSecret := none, mfaConfirmedAt := none }

/-- A step that leaves every row as it was. -/
theorem exists_change_of_users {a : Action} {id : Uuid} {user : User} (hid : s.user? id = some user)
    (h : (step d s a).user? id = s.user? id) :
    ∃ after, (step d s a).user? id = some after ∧ FactorChange d s user a after :=
  ⟨user, h.trans hid, .kept rfl⟩

/-- A step that saves the requester's row. -/
theorem exists_change_of_saveUser {a : Action} {id : Uuid} {user row : User} (saved : User)
    (hid : s.user? id = some user) (hrow : s.user? row.id = some row) (hsaved : saved.id = row.id)
    (h : (step d s a).user? id = (s.saveUser saved).user? id)
    (hchange : row = user → FactorChange d s user a saved) :
    ∃ after, (step d s a).user? id = some after ∧ FactorChange d s user a after := by
  rw [h, user?_saveUser, hid, Option.map_some]
  by_cases hu : user.id = saved.id
  · rw [if_pos hu]
    have heq : row = user := by
      have hsame : row.id = id := by rw [← hsaved, ← hu, user?_id hid]
      rw [hsame, hid] at hrow
      exact (Option.some.inj hrow).symm
    exact ⟨saved, rfl, hchange heq⟩
  · rw [if_neg hu]
    exact ⟨user, rfl, .kept rfl⟩

/-- What `confirm_mfa_enrollment` and `disable_mfa` have checked where they return. -/
theorem confirmMfaEnrollment_ok {user : User} {code : List Char} {s' : State}
    (h : confirmMfaEnrollment d.hmac s user code = .ok s') (id : Uuid) :
    s'.user? id =
      (s.saveUser { user with mfaEnabled := true, mfaConfirmedAt := some s.now }).user? id := by
  unfold confirmMfaEnrollment at h
  cases hsecret : user.mfaSecret with
  | none => simp [hsecret] at h
  | some secret =>
    simp only [hsecret] at h
    split at h
    · cases h
    · cases h
    · cases h
      rfl

theorem disableMfa_ok {user : User} {code : List Char} {s' : State}
    (h : disableMfa d.hmac s user code = .ok s') :
    (∃ secret, user.mfaSecret = some secret ∧ verifyTotp d.hmac secret code s.now = some true) ∧
      ∀ id, s'.user? id =
        (s.saveUser { user with mfaEnabled := false, mfaSecret := none, mfaConfirmedAt := none }).user? id := by
  unfold disableMfa at h
  split at h
  · cases h
  · cases h
  · rename_i secret henabled hsecret
    split at h
    · cases h
    · cases h
    · rename_i hcode
      cases h
      exact ⟨⟨secret, hsecret, hcode⟩, fun id => rfl⟩

/-- A view that takes a code changes nothing, or does what its service does with a code that passed the
serializer. -/
theorem mfaCodeView_cases (service : State → User → List Char → Except ServiceError State) (enabled : Bool)
    (k : Nat) (bearer : Option Uuid) (code : List Char) :
    (mfaCodeView service enabled s k bearer code).1 = s ∨
      ∃ user trimmed, requester s k bearer = some user ∧ mfaCodeSerializer code = some trimmed ∧
        service s user trimmed = .ok (mfaCodeView service enabled s k bearer code).1 := by
  unfold mfaCodeView
  cases hreq : requester s k bearer with
  | none => exact .inl rfl
  | some user =>
    cases hcode : mfaCodeSerializer code with
    | none => exact .inl rfl
    | some trimmed =>
      dsimp only
      split
      · exact .inl rfl
      · exact .inl rfl
      · rename_i s' hservice
        exact .inr ⟨user, trimmed, rfl, rfl, hservice⟩

theorem factor_step (a : Action) {id : Uuid} {user : User} (hid : s.user? id = some user) :
    ∃ after, (step d s a).user? id = some after ∧ FactorChange d s user a after := by
  cases a with
  | register k email password =>
    show ∃ after, (registerView d s k email password).1.user? id = some after ∧ _
    unfold registerView
    cases registerSerializer d s email password with
    | none => exact ⟨user, hid, .kept rfl⟩
    | some data =>
      refine ⟨user, ?_, .kept rfl⟩
      show List.find? _ (s.users ++ _) = _
      rw [List.find?_append]
      exact (congrArg (Option.or · _) hid).trans rfl
  | login k email password =>
    refine exists_change_of_users hid ?_
    show (loginView d s k email password).1.user? id = _
    unfold loginView
    cases loginSerializer d email password with
    | none => rfl
    | some data =>
      dsimp only
      cases authenticate s data.1 data.2 with
      | none => rfl
      | some found =>
        dsimp only
        split <;> rfl
  | mfaVerify k code =>
    refine exists_change_of_users hid ?_
    show (mfaLoginVerifyView d s k code).1.user? id = _
    unfold mfaLoginVerifyView
    cases (s.sessions k).pending with
    | none => rfl
    | some pendingId =>
      dsimp only
      cases mfaCodeSerializer code with
      | none => rfl
      | some code =>
        dsimp only
        cases s.activeUser? pendingId with
        | none => rfl
        | some found =>
          dsimp only
          split <;> rfl
  | logout k bearer =>
    refine exists_change_of_users hid ?_
    show (logoutView s k bearer).1.user? id = _
    unfold logoutView
    cases requester s k bearer with
    | none => rfl
    | some found => rfl
  | mfaEnroll k bearer secret =>
    cases hreq : requester s k bearer with
    | none =>
      refine exists_change_of_users hid ?_
      simp only [step, serve, mfaEnrollView, hreq]
    | some row =>
      refine exists_change_of_saveUser
        { row with mfaSecret := some secret, mfaEnabled := false, mfaConfirmedAt := none } hid
        (user?_of_requester hreq) rfl ?_ ?_
      · simp only [step, serve, mfaEnrollView, hreq, startMfaEnrollment]
      · rintro rfl
        exact .enrolled hreq
  | mfaConfirm k bearer code =>
    rcases mfaCodeView_cases (s := s) (confirmMfaEnrollment d.hmac) true k bearer code with
      hsame | ⟨row, trimmed, hreq, -, hservice⟩
    · exact exists_change_of_users hid (congrArg (State.user? · id) hsame)
    · refine exists_change_of_saveUser { row with mfaEnabled := true, mfaConfirmedAt := some s.now } hid
        (user?_of_requester hreq) rfl (confirmMfaEnrollment_ok hservice id) ?_
      rintro rfl
      exact .confirmed
  | mfaDisable k bearer code =>
    rcases mfaCodeView_cases (s := s) (disableMfa d.hmac) false k bearer code with
      hsame | ⟨row, trimmed, hreq, hcode, hservice⟩
    · exact exists_change_of_users hid (congrArg (State.user? · id) hsame)
    · obtain ⟨⟨secret, hsecret, hverified⟩, hrows⟩ := disableMfa_ok hservice
      refine exists_change_of_saveUser
        { row with mfaEnabled := false, mfaSecret := none, mfaConfirmedAt := none } hid
        (user?_of_requester hreq) rfl (hrows id) ?_
      rintro rfl
      exact .disabled ⟨secret, trimmed, hsecret, hcode, hverified⟩
  | wait seconds => exact exists_change_of_users hid rfl
  | endSession k => exact exists_change_of_users hid rfl
  | setActive target active =>
    have hrow : (step d s (.setActive target active)).user? id =
        (s.user? id).map fun u => if u.id = target then { u with isActive := active } else u := by
      refine user?_map _ (fun u => ?_) id
      split <;> rfl
    rw [hid, Option.map_some] at hrow
    refine ⟨_, hrow, .kept ?_⟩
    split <;> rfl

/-! ## The factor over runs -/

theorem strippedByCode_iff (a : Action) : StrippedByCode d s a ↔ NotReenrolling s a := by
  constructor
  · intro h
    cases a with
    | mfaEnroll k bearer secret =>
      intro user hreq
      by_contra henabled
      rw [Bool.not_eq_false] at henabled
      have hid := user?_of_requester hreq
      have hafter : (step d s (.mfaEnroll k bearer secret)).user? user.id =
          some { user with mfaSecret := some secret, mfaEnabled := false, mfaConfirmedAt := none } := by
        simp only [step, serve, mfaEnrollView, hreq, startMfaEnrollment, user?_saveUser, hid,
          Option.map_some, if_true]
      obtain ⟨code, hcode, -⟩ := h user.id user _ hid henabled hafter rfl
      cases hcode
    | _ => trivial
  · intro h id user after hid henabled hafter hstripped
    obtain ⟨row, hrow, hchange⟩ := factor_step (d := d) a hid
    rw [hafter, Option.some.injEq] at hrow
    subst hrow
    cases hchange with
    | kept hsame =>
      rw [hsame, henabled] at hstripped
      cases hstripped
    | enrolled hreq =>
      have hoff : user.mfaEnabled = false := h user hreq
      rw [henabled] at hoff
      cases hoff
    | confirmed => cases hstripped
    | disabled hcode => exact ⟨_, rfl, hcode⟩

/-- In the runs in which no protected account enrolls once more, and in no others, every step that turns a
second factor off carries a valid code for it. -/
theorem always_strippedByCode_iff (d : Django) (s : State) (as : List Action) :
    Always (step d) (StrippedByCode d) s as ↔ Always (step d) NotReenrolling s as :=
  always_iff_of_invariant (I := fun _ => True) (fun _ a _ => strippedByCode_iff a)
    (fun _ _ _ _ => trivial) trivial as

/-- A deployment in which every digest is zero, so that every code is `000000`. -/
def zeroDigests : Django :=
  { hmac := fun _ _ => List.replicate 20 0, upper := fun email => email.map Char.toUpper,
    validEmail := fun email => email.contains '@', validPassword := fun password => 12 ≤ password.length }

/-- An account with its second factor on. -/
def protectedUser : User :=
  { id := 1, email := "eve@example.com".toList, password := "a-strong-passw0rd!".toList,
    mfaEnabled := true, mfaSecret := some "JBSWY3DP".toList, mfaConfirmedAt := some 900 }

/-- Both factors given, then a request to enroll. -/
def reenrollment : List Action :=
  [.login 0 "eve@example.com".toList "a-strong-passw0rd!".toList, .mfaVerify 0 "000000".toList,
    .mfaEnroll 0 none "KRUGKIDR".toList]

theorem not_strippedByCode_of_reenrollment :
    ¬ Always (step zeroDigests) (StrippedByCode zeroDigests) (opened 1000 [protectedUser] 2)
      reenrollment := by
  intro h
  obtain ⟨-, -, h, -⟩ := h
  have hstripped := h 1 protectedUser
    { protectedUser with mfaSecret := some "KRUGKIDR".toList, mfaEnabled := false, mfaConfirmedAt := none }
    (by decide) rfl (by decide) rfl
  obtain ⟨code, hcode, -⟩ := hstripped
  cases hcode

end Accounts
