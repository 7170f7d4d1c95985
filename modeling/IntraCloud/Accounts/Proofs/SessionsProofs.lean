import IntraCloud.Accounts.Proofs.MfaProofs

/-!
# What an authenticated session stands on

What a step does to a session, with what the view has checked; from it, that nobody is logged in whose
password and code were not both given in the session, and which sessions a login with a code leaves as
a login without one would.
-/

namespace Accounts

open Transition

variable {d : Django} {s : State}

/-! ## One step -/

/-- The row that `register` creates. -/
def newUser (s : State) (data : List Char × List Char) : User :=
  { id := s.nextUuid, email := data.1, password := data.2 }

/-- What a step leaves of the session `k`. -/
inductive SessionChange (d : Django) (s : State) (k : Nat) : Action → Session → Prop where
  | kept {a} : SessionChange d s k a (s.sessions k)
  | loggedOut {bearer} : SessionChange d s k (.logout k bearer) {}
  | ended : SessionChange d s k (.endSession k) {}
  | registered {email password data} (h : registerSerializer d s email password = some data) :
    SessionChange d s k (.register k email password) (login (s.sessions k) (newUser s data))
  | pending {email password data user} (h : loginSerializer d email password = some data)
    (hu : authenticate s data.1 data.2 = some user) (hmfa : user.mfaEnabled = true) :
    SessionChange d s k (.login k email password)
      { s.sessions k with pending := some user.id, expiry := some MFA_PENDING_SESSION_TIMEOUT_SECONDS }
  | loggedIn {email password data user} (h : loginSerializer d email password = some data)
    (hu : authenticate s data.1 data.2 = some user) (hmfa : user.mfaEnabled = false) :
    SessionChange d s k (.login k email password) (login (s.sessions k) user)
  | dropped {code} : SessionChange d s k (.mfaVerify k code) { s.sessions k with pending := none }
  | verified {code user} (hpending : (s.sessions k).pending = some user.id)
    (hu : s.activeUser? user.id = some user) (hcode : ValidCode d s user code) :
    SessionChange d s k (.mfaVerify k code) (login { s.sessions k with pending := none } user)

theorem sessions_saveSession (k j : Nat) (session : Session) :
    (s.saveSession j session).sessions k = if k = j then session else s.sessions k :=
  Function.update_apply s.sessions j session k

/-- A step that saves the session `j` at most. -/
theorem SessionChange.of_saveSession {a : Action} {k j : Nat} {session saved : Session}
    (h : session = if k = j then saved else s.sessions k) (hsaved : k = j → SessionChange d s k a saved) :
    SessionChange d s k a session := by
  by_cases hk : k = j
  · rw [h, if_pos hk]
    exact hsaved hk
  · rw [h, if_neg hk]
    exact .kept

theorem confirmMfaEnrollment_sessions {user : User} {code : List Char} {s' : State}
    (h : confirmMfaEnrollment d.hmac s user code = .ok s') : s'.sessions = s.sessions := by
  unfold confirmMfaEnrollment at h
  split at h
  · cases h
  · split at h
    · cases h
    · cases h
    · cases h
      rfl

theorem disableMfa_sessions {user : User} {code : List Char} {s' : State}
    (h : disableMfa d.hmac s user code = .ok s') : s'.sessions = s.sessions := by
  unfold disableMfa at h
  split at h
  · cases h
  · cases h
  · split at h
    · cases h
    · cases h
    · cases h
      rfl

theorem verifyMfaCode_eq_true {user : User} {code trimmed : List Char}
    (hcode : mfaCodeSerializer code = some trimmed)
    (h : verifyMfaCode d.hmac user trimmed s.now = some true) : ValidCode d s user code := by
  unfold verifyMfaCode at h
  split at h
  · rename_i secret _ hsecret
    exact ⟨secret, trimmed, hsecret, hcode, h⟩
  · cases h

theorem activeUser?_id {id : Uuid} {user : User} (h : s.activeUser? id = some user) : user.id = id :=
  user?_id (Option.filter_eq_some_iff.mp h).1

theorem session_step (k : Nat) (a : Action) : SessionChange d s k a ((step d s a).sessions k) := by
  cases a with
  | register j email password =>
    show SessionChange d s k _ ((registerView d s j email password).1.sessions k)
    unfold registerView
    cases hdata : registerSerializer d s email password with
    | none => exact .kept
    | some data =>
      refine .of_saveSession (sessions_saveSession k j _) ?_
      rintro rfl
      exact .registered hdata
  | login j email password =>
    show SessionChange d s k _ ((loginView d s j email password).1.sessions k)
    unfold loginView
    cases hdata : loginSerializer d email password with
    | none => exact .kept
    | some data =>
      dsimp only
      cases huser : authenticate s data.1 data.2 with
      | none => exact .kept
      | some user =>
        dsimp only
        by_cases hmfa : user.mfaEnabled = true
        · rw [if_pos hmfa]
          refine .of_saveSession (sessions_saveSession k j _) ?_
          rintro rfl
          exact .pending hdata huser hmfa
        · rw [if_neg hmfa]
          refine .of_saveSession (sessions_saveSession k j _) ?_
          rintro rfl
          exact .loggedIn hdata huser (Bool.not_eq_true _ ▸ hmfa)
  | mfaVerify j code =>
    show SessionChange d s k _ ((mfaLoginVerifyView d s j code).1.sessions k)
    unfold mfaLoginVerifyView
    cases hpending : (s.sessions j).pending with
    | none => exact .kept
    | some pendingId =>
      dsimp only
      cases hcode : mfaCodeSerializer code with
      | none => exact .kept
      | some trimmed =>
        dsimp only
        cases huser : s.activeUser? pendingId with
        | none =>
          refine .of_saveSession (sessions_saveSession k j _) ?_
          rintro rfl
          exact .dropped
        | some user =>
          dsimp only
          split
          · exact .kept
          · exact .kept
          · rename_i hverified
            refine .of_saveSession (sessions_saveSession k j _) ?_
            rintro rfl
            rw [← activeUser?_id huser] at hpending huser
            exact .verified hpending huser (verifyMfaCode_eq_true hcode hverified)
  | logout j bearer =>
    show SessionChange d s k _ ((logoutView s j bearer).1.sessions k)
    unfold logoutView
    cases requester s j bearer with
    | none => exact .kept
    | some user =>
      refine .of_saveSession (sessions_saveSession k j _) ?_
      rintro rfl
      exact .loggedOut
  | mfaEnroll j bearer secret =>
    show SessionChange d s k _ ((mfaEnrollView s j bearer secret).1.sessions k)
    unfold mfaEnrollView
    cases requester s j bearer with
    | none => exact .kept
    | some user => exact .kept
  | mfaConfirm j bearer code =>
    have hsame : (step d s (.mfaConfirm j bearer code)).sessions = s.sessions := by
      rcases mfaCodeView_cases (s := s) (confirmMfaEnrollment d.hmac) true j bearer code with
        h | ⟨user, trimmed, -, -, h⟩
      · exact congrArg State.sessions h
      · exact confirmMfaEnrollment_sessions h
    rw [hsame]
    exact .kept
  | mfaDisable j bearer code =>
    have hsame : (step d s (.mfaDisable j bearer code)).sessions = s.sessions := by
      rcases mfaCodeView_cases (s := s) (disableMfa d.hmac) false j bearer code with
        h | ⟨user, trimmed, -, -, h⟩
      · exact congrArg State.sessions h
      · exact disableMfa_sessions h
    rw [hsame]
    exact .kept
  | wait seconds => exact .kept
  | endSession j =>
    refine .of_saveSession (sessions_saveSession k j _) ?_
    rintro rfl
    exact .ended
  | setActive id active => exact .kept

/-! ## Login -/

theorem login_user (session : Session) (user : User) : (login session user).user = some user.id := by
  unfold login
  split <;> rfl

/-- After a login the marker is the one before, unless another user's session was flushed. -/
theorem login_pending (session : Session) (user : User) :
    (login session user).pending =
      if session.user.any (· ≠ user.id) then none else session.pending := by
  unfold login
  split <;> rfl

theorem login_expiry (session : Session) (user : User) :
    (login session user).expiry = if session.user.any (· ≠ user.id) then none else session.expiry := by
  unfold login
  split <;> rfl

/-! ## Who is logged in -/

/-- A registration in the session `k` creates the user `u`. -/
def Registers (d : Django) (s : State) (a : Action) (k : Nat) (u : Uuid) : Prop :=
  ∃ email password data, a = .register k email password ∧
    registerSerializer d s email password = some data ∧ u = s.nextUuid

/-- A login request in the session `k` brings the address and the password of `user`. -/
def PasswordAccepted (d : Django) (s : State) (a : Action) (k : Nat) (user : User) : Prop :=
  ∃ email password data, a = .login k email password ∧ loginSerializer d email password = some data ∧
    authenticate s data.1 data.2 = some user

/-- A request in the session `k` brings a code that is valid now for the secret of `u`. -/
def CodeVerified (d : Django) (s : State) (a : Action) (k : Nat) (u : Uuid) : Prop :=
  ∃ code user, a = .mfaVerify k code ∧ s.user? u = some user ∧ ValidCode d s user code

/-- The user is logged in on the session or has given the password in it. -/
def Concerns (s : State) (k : Nat) (u : Uuid) : Prop :=
  (s.sessions k).user = some u ∨ (s.sessions k).pending = some u

/-- In the session as it stands since then, the user was registered, or gave the password and, if the
second factor was on at that moment, a valid code later. -/
def Earned (d : Django) (s : State) (as : List Action) (k : Nat) (u : Uuid) : Prop :=
  ∃ before a after, as = before ++ a :: after ∧
    (∀ since, since <+: after → Concerns (run (step d) s (before ++ a :: since)) k u) ∧
    (Registers d (run (step d) s before) a k u ∨
      ∃ user, user.id = u ∧ PasswordAccepted d (run (step d) s before) a k user ∧
        (user.mfaEnabled = true → ∃ between b rest, after = between ++ b :: rest ∧
          CodeVerified d (run (step d) s (before ++ a :: between)) b k u))

/-- The steps after which somebody is logged in on the session who was not. -/
theorem user_source {k : Nat} {u : Uuid} {a : Action} (hbefore : ¬ (s.sessions k).user = some u)
    (hafter : ((step d s a).sessions k).user = some u) :
    Registers d s a k u ∨ (∃ user, user.id = u ∧ PasswordAccepted d s a k user ∧ user.mfaEnabled = false) ∨
      (s.sessions k).pending = some u ∧ CodeVerified d s a k u := by
  have hchange := session_step (d := d) (s := s) k a
  revert hafter hchange
  generalize (step d s a).sessions k = session
  intro hafter hchange
  cases hchange with
  | kept => exact absurd hafter hbefore
  | loggedOut => cases hafter
  | ended => cases hafter
  | registered hdata =>
    rw [login_user, Option.some.injEq] at hafter
    exact .inl ⟨_, _, _, rfl, hdata, hafter.symm⟩
  | pending hdata huser hmfa => exact absurd hafter hbefore
  | loggedIn hdata huser hmfa =>
    rw [login_user, Option.some.injEq] at hafter
    exact .inr (.inl ⟨_, hafter, ⟨_, _, _, rfl, hdata, huser⟩, hmfa⟩)
  | dropped => exact absurd hafter hbefore
  | verified hpending huser hcode =>
    rw [login_user, Option.some.injEq] at hafter
    rw [hafter] at hpending huser
    exact .inr (.inr ⟨hpending, _, _, rfl, (Option.filter_eq_some_iff.mp huser).1, hcode⟩)

/-- The steps after which a session waits for the code of somebody it did not wait for. -/
theorem pending_source {k : Nat} {u : Uuid} {a : Action} (hbefore : ¬ (s.sessions k).pending = some u)
    (hafter : ((step d s a).sessions k).pending = some u) :
    ∃ user, user.id = u ∧ PasswordAccepted d s a k user := by
  have hchange := session_step (d := d) (s := s) k a
  have hlogin : ∀ (session : Session) (user : User),
      (login session user).pending = some u → session.pending = some u := by
    intro session user h
    rw [login_pending] at h
    split at h
    · cases h
    · exact h
  revert hafter hchange
  generalize (step d s a).sessions k = session
  intro hafter hchange
  cases hchange with
  | kept => exact absurd hafter hbefore
  | loggedOut => cases hafter
  | ended => cases hafter
  | registered hdata => exact absurd (hlogin _ _ hafter) hbefore
  | pending hdata huser hmfa =>
    rw [Option.some.injEq] at hafter
    exact ⟨_, hafter, _, _, _, rfl, hdata, huser⟩
  | loggedIn hdata huser hmfa => exact absurd (hlogin _ _ hafter) hbefore
  | dropped => cases hafter
  | verified hpending huser hcode => exact nomatch hlogin _ _ hafter

/-- Where the first part of a run ends in a state that the rest goes on from, the prefixes of the whole are
those of the first part and those that reach into the rest. -/
theorem prefix_append_cons {α : Type*} {since first rest : List α} {a : α}
    (h : since <+: first ++ a :: rest) :
    since <+: first ∨ ∃ since', since = first ++ a :: since' ∧ since' <+: rest := by
  rcases List.prefix_or_prefix_of_prefix h (List.prefix_append first (a :: rest)) with h' | ⟨tail, rfl⟩
  · exact .inl h'
  · rw [List.prefix_append_right_inj] at h
    cases tail with
    | nil => exact .inl (by simp)
    | cons b tail =>
      obtain ⟨rfl, htail⟩ := List.cons_prefix_cons.mp h
      exact .inr ⟨tail, rfl, htail⟩

theorem earned_of_authenticated (d : Django) (now : Nat) (users : List User) (nextUuid : Nat)
    (as : List Action) (k : Nat) (u : Uuid)
    (h : ((run (step d) (opened now users nextUuid) as).sessions k).user = some u) :
    Earned d (opened now users nextUuid) as k u := by
  obtain ⟨before, a, after, rfl, -, hsource, hsince⟩ :=
    @made_of_run _ _ (step d) _ (fun _ => True) (fun s => (s.sessions k).user = some u) _
      (fun _ _ _ => trivial) (fun _ _ _ => user_source) trivial (by simp [opened]) as h
  rcases hsource with hregisters | ⟨user, hid, hpassword, hmfa⟩ | ⟨hpending, hcode⟩
  · exact ⟨before, a, after, rfl, fun since hpre => .inl (hsince since hpre), .inl hregisters⟩
  · refine ⟨before, a, after, rfl, fun since hpre => .inl (hsince since hpre),
      .inr ⟨user, hid, hpassword, fun henabled => ?_⟩⟩
    rw [hmfa] at henabled
    cases henabled
  · -- the marker that the code answers was set by the password, and has stood since
    obtain ⟨first, p, between, rfl, -, ⟨user, hid, hpassword⟩, hwaiting⟩ :=
      @made_of_run _ _ (step d) _ (fun _ => True) (fun s => (s.sessions k).pending = some u) _
        (fun _ _ _ => trivial) (fun _ _ _ => pending_source) trivial (by simp [opened]) before hpending
    refine ⟨first, p, between ++ a :: after, by simp, fun since hpre => ?_,
      .inr ⟨user, hid, hpassword, fun _ => ⟨between, a, after, rfl, hcode⟩⟩⟩
    rcases prefix_append_cons hpre with hfirst | ⟨since, rfl, hrest⟩
    · exact .inr (hwaiting since hfirst)
    · have hsame : first ++ p :: (between ++ a :: since) = (first ++ p :: between) ++ a :: since := by simp
      rw [hsame]
      exact .inl (hsince since hrest)

/-- A session in which both factors of the protected account were given. -/
theorem earned_of_authenticated_bothFactors :
    Earned zeroDigests (opened 1000 [protectedUser] 2) (reenrollment.take 2) 0 1 :=
  earned_of_authenticated zeroDigests 1000 [protectedUser] 2 (reenrollment.take 2) 0 1 (by decide)

/-! ## What a login with a code leaves -/

/-- What a login of `u` without a second factor leaves of a session. -/
def plainLogin (session : Session) (u : Uuid) : Session :=
  if session.user.any (· ≠ u) then { user := some u } else { session with user := some u }

theorem loginView_plain {k : Nat} {email password : List Char} {data : List Char × List Char} {user : User}
    (hdata : loginSerializer d email password = some data)
    (huser : authenticate s data.1 data.2 = some user) (hmfa : user.mfaEnabled = false) :
    ((loginView d s k email password).1.sessions k) = plainLogin (s.sessions k) user.id := by
  simp only [loginView, hdata, huser, hmfa, Bool.false_eq_true, if_false]
  exact (sessions_saveSession k k _).trans (if_pos rfl)

/-- The session and the user whom a response says to be logged in. -/
def loggedIn : Action → Response → Option (Nat × Uuid)
  | .register k _ _, .created user | .login k _ _, .ok user | .mfaVerify k _, .ok user => some (k, user.id)
  | _, _ => none

/-- The action asks for the second factor. -/
def Action.isVerify : Action → Bool
  | .mfaVerify _ _ => true
  | _ => false

/-- The session and the user that an action logs in, by the checks of its view. -/
def entrant (d : Django) (s : State) : Action → Option (Nat × User)
  | .register k email password => (registerSerializer d s email password).map fun data => (k, newUser s data)
  | .login k email password =>
    (((loginSerializer d email password).bind fun data => authenticate s data.1 data.2).filter
      fun user => !user.mfaEnabled).map fun user => (k, user)
  | .mfaVerify k code =>
    (((s.sessions k).pending.bind s.activeUser?).filter fun user =>
      (mfaCodeSerializer code).any fun trimmed => verifyMfaCode d.hmac user trimmed s.now = some true).map
        fun user => (k, user)
  | _ => none

/-- A completed login leaves no marker, and one with a code leaves what a plain login would have left of
the session that the sequence started from. -/
def LeavesPlainSession (d : Django) (start : Nat → Session) (s : State) (a : Action) : Prop :=
  ∀ k u, loggedIn a (serve d s a).2 = some (k, u) →
    ((step d s a).sessions k).pending = none ∧
      (a.isVerify = true → (step d s a).sessions k = plainLogin (start k) u)

/-- Another user is logged in on the session, so that a login flushes it. -/
def Session.OfAnother (session : Session) (u : Uuid) : Prop := session.user.any (· ≠ u) = true

instance (session : Session) (u : Uuid) : Decidable (session.OfAnother u) :=
  inferInstanceAs (Decidable (_ = _))

/-- A login without a code meets no marker that it keeps. One with a code flushes the session, and so would
a login at the start, or there was nothing to keep; or else nothing is flushed and the five minutes were
already set at the start. -/
def NothingLeftOver (d : Django) (start : Nat → Session) (s : State) (a : Action) : Prop :=
  ∀ k user, entrant d s a = some (k, user) →
    if a.isVerify = true then
      if (s.sessions k).OfAnother user.id then
        (start k).OfAnother user.id ∨ (start k).pending = none ∧ (start k).expiry = none
      else
        ¬ (start k).OfAnother user.id ∧ (start k).pending = none ∧
          (start k).expiry = some MFA_PENDING_SESSION_TIMEOUT_SECONDS
    else (s.sessions k).OfAnother user.id ∨ (s.sessions k).pending = none

/-- A session with a marker runs out after five minutes. -/
def MarkersExpire (s : State) : Prop :=
  ∀ k, (s.sessions k).pending ≠ none →
    (s.sessions k).expiry = some MFA_PENDING_SESSION_TIMEOUT_SECONDS

theorem markersExpire_step (hs : MarkersExpire s) (a : Action) : MarkersExpire (step d s a) := by
  intro k
  have hlogin : ∀ (session : Session) (user : User),
      (session.pending ≠ none → session.expiry = some MFA_PENDING_SESSION_TIMEOUT_SECONDS) →
      (login session user).pending ≠ none →
        (login session user).expiry = some MFA_PENDING_SESSION_TIMEOUT_SECONDS := by
    intro session user h hpending
    rw [login_pending] at hpending
    rw [login_expiry]
    split at hpending
    · exact absurd rfl hpending
    · rename_i hsame
      rw [if_neg hsame]
      exact h hpending
  have hchange := session_step (d := d) (s := s) k a
  revert hchange
  generalize (step d s a).sessions k = session
  intro hchange
  cases hchange with
  | kept => exact hs k
  | loggedOut => exact fun h => absurd rfl h
  | ended => exact fun h => absurd rfl h
  | registered => exact hlogin _ _ (hs k)
  | pending => exact fun _ => rfl
  | loggedIn => exact hlogin _ _ (hs k)
  | dropped => exact fun h => absurd rfl h
  | verified => exact hlogin _ _ fun h => absurd rfl h

/-- A response says that somebody is logged in where the checks of the view have passed. -/
theorem loggedIn_iff (a : Action) (k : Nat) (u : Uuid) :
    loggedIn a (serve d s a).2 = some (k, u) ↔ ∃ user, entrant d s a = some (k, user) ∧ user.id = u := by
  cases a with
  | register j email password =>
    show loggedIn _ (registerView d s j email password).2 = some (k, u) ↔ _
    cases hdata : registerSerializer d s email password with
    | none => simp [registerView, hdata, loggedIn, entrant]
    | some data => simp [registerView, hdata, loggedIn, entrant, newUser, User.data]
  | login j email password =>
    show loggedIn _ (loginView d s j email password).2 = some (k, u) ↔ _
    cases hdata : loginSerializer d email password with
    | none => simp [loginView, hdata, loggedIn, entrant]
    | some data =>
      cases huser : authenticate s data.1 data.2 with
      | none => simp [loginView, hdata, huser, loggedIn, entrant]
      | some user =>
        cases hmfa : user.mfaEnabled with
        | false => simp [loginView, hdata, huser, hmfa, loggedIn, entrant, User.data]
        | true => simp [loginView, hdata, huser, hmfa, loggedIn, entrant]
  | mfaVerify j code =>
    show loggedIn _ (mfaLoginVerifyView d s j code).2 = some (k, u) ↔ _
    cases hpending : (s.sessions j).pending with
    | none => simp [mfaLoginVerifyView, hpending, loggedIn, entrant]
    | some pendingId =>
      cases htrimmed : mfaCodeSerializer code with
      | none => simp [mfaLoginVerifyView, hpending, htrimmed, loggedIn, entrant]
      | some trimmed =>
        cases huser : s.activeUser? pendingId with
        | none => simp [mfaLoginVerifyView, hpending, htrimmed, huser, loggedIn, entrant]
        | some user =>
          cases hcode : verifyMfaCode d.hmac user trimmed s.now with
          | none => simp [mfaLoginVerifyView, hpending, htrimmed, huser, hcode, loggedIn, entrant]
          | some verified =>
            cases verified with
            | false => simp [mfaLoginVerifyView, hpending, htrimmed, huser, hcode, loggedIn, entrant]
            | true =>
              simp [mfaLoginVerifyView, hpending, htrimmed, huser, hcode, loggedIn, entrant, User.data]
  | _ => simp [loggedIn, entrant]

/-- What is left of the session that somebody is logged in on. -/
theorem sessions_of_entrant {a : Action} {k : Nat} {user : User} (h : entrant d s a = some (k, user)) :
    (step d s a).sessions k =
      login { s.sessions k with pending := if a.isVerify then none else (s.sessions k).pending } user := by
  cases a with
  | register j email password =>
    obtain ⟨data, hdata, hpair⟩ := Option.map_eq_some_iff.mp h
    obtain ⟨rfl, rfl⟩ := Prod.mk.inj hpair
    simp only [step, serve, registerView, hdata]
    exact (sessions_saveSession j j _).trans (if_pos rfl)
  | login j email password =>
    obtain ⟨row, hrow, hpair⟩ := Option.map_eq_some_iff.mp h
    obtain ⟨rfl, rfl⟩ := Prod.mk.inj hpair
    obtain ⟨hfound, hmfa⟩ := Option.filter_eq_some_iff.mp hrow
    obtain ⟨data, hdata, huser⟩ := Option.bind_eq_some_iff.mp hfound
    exact loginView_plain hdata huser (by simpa using hmfa)
  | mfaVerify j code =>
    obtain ⟨row, hrow, hpair⟩ := Option.map_eq_some_iff.mp h
    obtain ⟨rfl, rfl⟩ := Prod.mk.inj hpair
    obtain ⟨hfound, hcode⟩ := Option.filter_eq_some_iff.mp hrow
    obtain ⟨pendingId, hpending, huser⟩ := Option.bind_eq_some_iff.mp hfound
    obtain ⟨trimmed, htrimmed, hverified⟩ : ∃ trimmed, mfaCodeSerializer code = some trimmed ∧
        verifyMfaCode d.hmac row trimmed s.now = some true := by
      cases htrimmed : mfaCodeSerializer code with
      | none => simp [htrimmed] at hcode
      | some trimmed => exact ⟨trimmed, rfl, by simpa [htrimmed] using hcode⟩
    simp only [step, serve, mfaLoginVerifyView, hpending, htrimmed, huser, hverified]
    exact (sessions_saveSession j j _).trans (if_pos rfl)
  | _ => cases h

/-- A login with a code answers a marker. -/
theorem pending_of_entrant {a : Action} {k : Nat} {user : User} (h : entrant d s a = some (k, user))
    (hverify : a.isVerify = true) : (s.sessions k).pending ≠ none := by
  cases a with
  | mfaVerify j code =>
    obtain ⟨row, hrow, hpair⟩ := Option.map_eq_some_iff.mp h
    obtain ⟨rfl, rfl⟩ := Prod.mk.inj hpair
    obtain ⟨pendingId, hpending, -⟩ := Option.bind_eq_some_iff.mp (Option.filter_eq_some_iff.mp hrow).1
    rw [hpending]
    exact Option.some_ne_none _
  | _ => cases hverify

theorem login_of_another {session : Session} {user : User} (pending : Option Uuid)
    (h : session.OfAnother user.id) :
    login { session with pending := pending } user = { user := some user.id } := if_pos h

theorem login_of_same {session : Session} {user : User} (pending : Option Uuid)
    (h : ¬ session.OfAnother user.id) :
    login { session with pending := pending } user =
      { session with user := some user.id, pending := pending } := if_neg h

theorem plainLogin_of_another {start : Session} {u : Uuid} (h : start.OfAnother u) :
    plainLogin start u = { user := some u } := if_pos h

theorem plainLogin_of_same {start : Session} {u : Uuid} (h : ¬ start.OfAnother u) :
    plainLogin start u = { start with user := some u } := if_neg h

/-- When a login from a session that waits for the code is one from the starting session. -/
theorem login_eq_plainLogin_iff {session start : Session} {user : User}
    (hexpiry : session.expiry = some MFA_PENDING_SESSION_TIMEOUT_SECONDS) :
    login { session with pending := none } user = plainLogin start user.id ↔
      if session.OfAnother user.id then start.OfAnother user.id ∨ start.pending = none ∧ start.expiry = none
      else ¬ start.OfAnother user.id ∧ start.pending = none ∧
        start.expiry = some MFA_PENDING_SESSION_TIMEOUT_SECONDS := by
  by_cases hsession : session.OfAnother user.id
  · rw [if_pos hsession, login_of_another none hsession]
    by_cases hstart : start.OfAnother user.id
    · rw [plainLogin_of_another hstart]
      exact ⟨fun _ => .inl hstart, fun _ => rfl⟩
    · rw [plainLogin_of_same hstart, Session.mk.injEq]
      constructor
      · rintro ⟨-, hpending, hnone⟩
        exact .inr ⟨hpending.symm, hnone.symm⟩
      · rintro (hother | ⟨hpending, hnone⟩)
        · exact absurd hother hstart
        · exact ⟨rfl, hpending.symm, hnone.symm⟩
  · rw [if_neg hsession, login_of_same none hsession]
    by_cases hstart : start.OfAnother user.id
    · rw [plainLogin_of_another hstart, Session.mk.injEq, hexpiry]
      exact ⟨fun h => absurd h.2.2 (Option.some_ne_none _), fun h => absurd hstart h.1⟩
    · rw [plainLogin_of_same hstart, Session.mk.injEq, hexpiry]
      constructor
      · rintro ⟨-, hpending, hsame⟩
        exact ⟨hstart, hpending.symm, hsame.symm⟩
      · rintro ⟨-, hpending, hsame⟩
        exact ⟨rfl, hpending.symm, hsame.symm⟩

theorem leavesPlainSession_iff (hs : MarkersExpire s) (start : Nat → Session) (a : Action) :
    LeavesPlainSession d start s a ↔ NothingLeftOver d start s a := by
  have hone : ∀ k user, entrant d s a = some (k, user) →
      ((((step d s a).sessions k).pending = none ∧
          (a.isVerify = true → (step d s a).sessions k = plainLogin (start k) user.id)) ↔
        if a.isVerify = true then
          if (s.sessions k).OfAnother user.id then
            (start k).OfAnother user.id ∨ (start k).pending = none ∧ (start k).expiry = none
          else
            ¬ (start k).OfAnother user.id ∧ (start k).pending = none ∧
              (start k).expiry = some MFA_PENDING_SESSION_TIMEOUT_SECONDS
        else (s.sessions k).OfAnother user.id ∨ (s.sessions k).pending = none) := by
    intro k user hentrant
    rw [sessions_of_entrant hentrant]
    by_cases hverify : a.isVerify = true
    · simp only [hverify, if_true, login_pending, ite_self, true_and, forall_const]
      exact login_eq_plainLogin_iff (hs k (pending_of_entrant hentrant hverify))
    · simp only [hverify, login_pending, if_false, false_implies, and_true, Bool.false_eq_true]
      unfold Session.OfAnother
      by_cases hother : (s.sessions k).user.any (· ≠ user.id) = true
      · simp only [hother, if_true, true_or]
      · simp only [hother, if_false, false_or, Bool.false_eq_true]
  constructor
  · intro h k user hentrant
    exact (hone k user hentrant).mp (h k user.id ((loggedIn_iff a k user.id).mpr ⟨user, hentrant, rfl⟩))
  · intro h k u hresponse
    obtain ⟨user, hentrant, rfl⟩ := (loggedIn_iff a k u).mp hresponse
    exact (hone k user hentrant).mpr (h k user hentrant)

/-- The state that a sequence of requests starts from. -/
def reached (d : Django) (now : Nat) (users : List User) (nextUuid : Nat) (before : List Action) : State :=
  run (step d) (opened now users nextUuid) before

theorem always_leavesPlainSession_iff (d : Django) (now : Nat) (users : List User) (nextUuid : Nat)
    (before as : List Action) :
    Always (step d) (LeavesPlainSession d (reached d now users nextUuid before).sessions)
        (reached d now users nextUuid before) as ↔
      Always (step d) (NothingLeftOver d (reached d now users nextUuid before).sessions)
        (reached d now users nextUuid before) as := by
  have hopened : MarkersExpire (opened now users nextUuid) := fun k h => absurd rfl h
  have hstart : MarkersExpire (reached d now users nextUuid before) :=
    run_invariant_of_forall (I := MarkersExpire) (fun s a hs => markersExpire_step hs a) hopened before
  exact always_iff_of_invariant (I := MarkersExpire) (fun s a hs => leavesPlainSession_iff hs _ a)
    (fun s a hs _ => markersExpire_step hs a) hstart as

/-- The five minutes of the pending login outlast it. -/
theorem not_leavesPlainSession_of_code :
    ¬ Always (step zeroDigests)
      (LeavesPlainSession zeroDigests (reached zeroDigests 1000 [protectedUser] 2 []).sessions)
      (reached zeroDigests 1000 [protectedUser] 2 []) (reenrollment.take 2) := by
  intro h
  obtain ⟨-, h, -⟩ := h
  have hplain := (h 0 1 (by decide)).2 (by decide)
  revert hplain
  decide

end Accounts
