import IntraCloud.System.TenantRole
import IntraCloud.Transition.Scripts

/-!
# What provisioning roles does to the server

No role gets more than the few privileges, whatever fails; and what was interrupted is repaired by `ensure_role`.
-/

namespace TenantRole

open Transition

variable {takes : Name → List Char → Bool} {db name : Name} {password : List Char} {c c' c₀ : Cluster}
  {statement : Statement} {outcome : Outcome}

/-! ## Statements -/

/-- A statement is executed or is not; and only where it is, it may not raise. -/
theorem execute_cases (takes : Name → List Char → Bool) (c : Cluster) (statement : Statement) (outcome : Outcome) :
    execute takes c statement outcome = (c, .error .couldNotProvision) ∨
      ∃ c', statement.exec takes c = some c' ∧ (execute takes c statement outcome = (c', .error .couldNotProvision) ∨
        execute takes c statement outcome = (c', .ok ())) := by
  cases hexec : statement.exec takes c with
  | none =>
    left
    cases outcome with
    | done => rw [execute, hexec]
    | refused => rw [execute]
    | lost => rw [execute, hexec, Option.getD_none]
  | some c' =>
    cases outcome with
    | done => exact .inr ⟨c', rfl, .inr (by rw [execute, hexec])⟩
    | refused => exact .inl (by rw [execute])
    | lost => exact .inr ⟨c', rfl, .inl (by rw [execute, hexec, Option.getD_some])⟩

/-- What every statement keeps, a list of them keeps, wherever it stops. -/
theorem executeAll_keeps {P : Cluster → Prop} {statements : List (Statement × Outcome)}
    (hkeeps : ∀ s ∈ statements, ∀ c c', P c → s.1.exec takes c = some c' → P c') (h : P c) :
    P (executeAll takes c statements).1 := by
  induction statements generalizing c with
  | nil => exact h
  | cons s rest ih =>
    obtain ⟨statement, outcome⟩ := s
    rw [List.forall_mem_cons] at hkeeps
    rw [executeAll]
    obtain hstop | ⟨c', hexec, hlost | hdone⟩ := execute_cases takes c statement outcome
    · rw [hstop]
      exact h
    · rw [hlost]
      exact hkeeps.1 c c' h hexec
    · rw [hdone]
      exact ih hkeeps.2 (hkeeps.1 c c' h hexec)

theorem executeAll_ok {rest : List (Statement × Outcome)}
    (hok : (executeAll takes c ((statement, outcome) :: rest)).2 = .ok ()) :
    ∃ c', statement.exec takes c = some c' ∧
      executeAll takes c ((statement, outcome) :: rest) = executeAll takes c' rest := by
  rw [executeAll] at hok ⊢
  obtain hstop | ⟨c', hexec, hlost | hdone⟩ := execute_cases takes c statement outcome
  · rw [hstop] at hok
    cases hok
  · rw [hlost] at hok
    cases hok
  · rw [hdone]
    exact ⟨c', hexec, rfl⟩

theorem exec_createRole (h : (Statement.createRole name password).exec takes c = some c') :
    takes name password = true ∧ c.roles name = none ∧
      c' = c.setRole name (newRole password) := by
  rw [Statement.exec] at h
  by_cases hguard : takes name password && (c.roles name).isNone
  · rw [if_pos hguard] at h
    rw [Bool.and_eq_true] at hguard
    exact ⟨hguard.1, Option.isNone_iff_eq_none.mp hguard.2, (Option.some.inj h).symm⟩
  · rw [if_neg hguard] at h
    cases h

theorem exec_alterRole (h : (Statement.alterRole name password).exec takes c = some c') :
    takes name password = true ∧ ∃ role, c.roles name = some role ∧
      c' = c.setRole name (role.altered password) := by
  rw [Statement.exec] at h
  by_cases htakes : takes name password
  · rw [if_pos htakes] at h
    obtain ⟨role, hrole, heq⟩ := Option.map_eq_some_iff.mp h
    exact ⟨htakes, role, hrole, heq.symm⟩
  · rw [if_neg htakes] at h
    cases h

theorem exec_grant (h : (Statement.grant db name).exec takes c = some c') :
    (c.roles name).isSome = true ∧ ∃ d, c.databases db = some d ∧
      c' = c.setDatabase db (d.granted name) := by
  rw [Statement.exec] at h
  by_cases hrole : (c.roles name).isSome
  · rw [if_pos hrole] at h
    obtain ⟨d, hd, heq⟩ := Option.map_eq_some_iff.mp h
    exact ⟨hrole, d, hd, heq.symm⟩
  · rw [if_neg hrole] at h
    cases h

theorem exec_revoke (h : (Statement.revoke db).exec takes c = some c') :
    ∃ d, c.databases db = some d ∧ c' = c.setDatabase db d.revoked := by
  obtain ⟨d, hd, heq⟩ := Option.map_eq_some_iff.mp h
  exact ⟨d, hd, heq.symm⟩

/-! ## Privileges -/

/-- A statement that a call of the list makes. -/
def Permitted (db : Name) (calls : List Call) : Statement → Prop
  | .createRole name password => ∃ call ∈ calls, call.name = name ∧ call.password = password
  | .alterRole name password => ∃ call ∈ calls, call.strict = false ∧ call.name = name ∧ call.password = password
  | .grant d name => d = db ∧ ∃ call ∈ calls, call.name = name
  | .revoke d => d = db

theorem within_refl (calls : List Call) : Within db calls c₀ c₀ where
  kept _ h := h
  created r role hnone hsome := by rw [hnone] at hsome; cases hsome
  altered r before after hbefore hafter := .inl (Option.some.inj (hafter.symm.trans hbefore))
  others _ _ := rfl
  exists_iff := rfl
  privileges before after hbefore hafter := by
    obtain rfl := Option.some.inj (hafter.symm.trans hbefore)
    exact ⟨id, fun _ => ⟨id, id, .inl, .inl⟩⟩

theorem Within.createRole {calls : List Call} (h : Within db calls c₀ c) (hnone : c.roles name = none)
    (hcall : ∃ call ∈ calls, call.name = name ∧ call.password = password) :
    Within db calls c₀ (c.setRole name (newRole password)) := by
  have hnew : c₀.roles name = none := by
    rw [← Option.not_isSome_iff_eq_none]
    intro hsome
    have hkept := h.kept name hsome
    rw [hnone] at hkept
    cases hkept
  refine { h with kept := fun r hr => ?_, created := fun r role hr hrole => ?_, altered := fun r b a hb ha => ?_ }
  · by_cases heq : r = name
    · rw [heq, Cluster.roles_setRole_self, Option.isSome_some]
    · rw [Cluster.roles_setRole_of_ne heq]
      exact h.kept r hr
  · by_cases heq : r = name
    · rw [heq, Cluster.roles_setRole_self] at hrole
      obtain ⟨call, hmem, hname, hpassword⟩ := hcall
      refine ⟨call, hmem, hname.trans heq.symm, ?_⟩
      rw [hpassword]
      exact (Option.some.inj hrole).symm
    · rw [Cluster.roles_setRole_of_ne heq] at hrole
      exact h.created r role hr hrole
  · by_cases heq : r = name
    · rw [heq, hnew] at hb
      cases hb
    · rw [Cluster.roles_setRole_of_ne heq] at ha
      exact h.altered r b a hb ha

theorem Within.alterRole {calls : List Call} {role : PgRole} (h : Within db calls c₀ c)
    (hrole : c.roles name = some role)
    (hcall : ∃ call ∈ calls, call.strict = false ∧ call.name = name ∧ call.password = password) :
    Within db calls c₀ (c.setRole name (role.altered password)) := by
  obtain ⟨call, hmem, hstrict, hname, hpassword⟩ := hcall
  refine { h with kept := fun r hr => ?_, created := fun r role' hr hrole' => ?_, altered := fun r b a hb ha => ?_ }
  · by_cases heq : r = name
    · rw [heq, Cluster.roles_setRole_self, Option.isSome_some]
    · rw [Cluster.roles_setRole_of_ne heq]
      exact h.kept r hr
  · by_cases heq : r = name
    · subst heq
      rw [Cluster.roles_setRole_self] at hrole'
      obtain ⟨call', -, -, hnew⟩ := h.created r role hr hrole
      refine ⟨call, hmem, hname, ?_⟩
      rw [← Option.some.inj hrole', hnew, hpassword]
      rfl
    · rw [Cluster.roles_setRole_of_ne heq] at hrole'
      exact h.created r role' hr hrole'
  · by_cases heq : r = name
    · subst heq
      rw [Cluster.roles_setRole_self] at ha
      refine .inr ⟨call, hmem, hstrict, hname, ?_⟩
      rw [← Option.some.inj ha, hpassword]
      -- a second password replaces the first
      obtain hsame | ⟨call', -, -, -, haltered⟩ := h.altered r b role hb hrole
      · rw [hsame]
      · rw [haltered]
        rfl
    · rw [Cluster.roles_setRole_of_ne heq] at ha
      exact h.altered r b a hb ha

theorem Within.database {calls : List Call} {d d' : PgDatabase} (h : Within db calls c₀ c)
    (hd : c.databases db = some d) (hpublic : d'.publicConnect = true → d.publicConnect = true)
    (hprivileges : ∀ r, (d.connect r = true → d'.connect r = true) ∧ (d.create r = true → d'.create r = true) ∧
      (d'.connect r = true → d.connect r = true ∨ ∃ call ∈ calls, call.name = r) ∧
      (d'.create r = true → d.create r = true ∨ ∃ call ∈ calls, call.name = r)) :
    Within db calls c₀ (c.setDatabase db d') := by
  refine { h with others := fun x hx => ?_, exists_iff := ?_, privileges := fun b a hb ha => ?_ }
  · rw [Cluster.databases_setDatabase_of_ne hx]
    exact h.others x hx
  · rw [Cluster.databases_setDatabase_self, ← h.exists_iff, hd]
    rfl
  · rw [Cluster.databases_setDatabase_self] at ha
    obtain rfl := Option.some.inj ha
    obtain ⟨hbefore, hkept⟩ := h.privileges b d hb hd
    refine ⟨hbefore ∘ hpublic, fun r => ?_⟩
    obtain ⟨hconnect, hcreate, hconnect', hcreate'⟩ := hprivileges r
    obtain ⟨kconnect, kcreate, kconnect', kcreate'⟩ := hkept r
    refine ⟨hconnect ∘ kconnect, hcreate ∘ kcreate, fun h => ?_, fun h => ?_⟩
    · exact (hconnect' h).elim kconnect' .inr
    · exact (hcreate' h).elim kcreate' .inr

theorem update_true {f : Name → Bool} {r : Name} (h : f r = true) : Function.update f name true r = true := by
  by_cases heq : r = name
  · rw [heq, Function.update_self]
  · rw [Function.update_of_ne heq, h]

theorem of_update_true {f : Name → Bool} {r : Name} (h : Function.update f name true r = true) :
    f r = true ∨ r = name := by
  by_cases heq : r = name
  · exact .inr heq
  · rw [Function.update_of_ne heq] at h
    exact .inl h

/-- One statement. -/
theorem Within.exec {calls : List Call} (h : Within db calls c₀ c) (hexec : statement.exec takes c = some c')
    (hpermitted : Permitted db calls statement) : Within db calls c₀ c' := by
  cases statement with
  | createRole name password =>
    obtain ⟨-, hnone, rfl⟩ := exec_createRole hexec
    exact h.createRole hnone hpermitted
  | alterRole name password =>
    obtain ⟨-, role, hrole, rfl⟩ := exec_alterRole hexec
    exact h.alterRole hrole hpermitted
  | grant database name =>
    obtain ⟨rfl, call, hmem, hname⟩ := hpermitted
    obtain ⟨-, d, hd, rfl⟩ := exec_grant hexec
    refine h.database hd id fun r => ⟨update_true, update_true, fun hr => ?_, fun hr => ?_⟩
    · exact (of_update_true hr).imp_right fun heq => ⟨call, hmem, hname.trans heq.symm⟩
    · exact (of_update_true hr).imp_right fun heq => ⟨call, hmem, hname.trans heq.symm⟩
  | revoke database =>
    obtain rfl : database = db := hpermitted
    obtain ⟨d, hd, rfl⟩ := exec_revoke hexec
    exact h.database hd (fun hfalse => absurd hfalse Bool.false_ne_true) fun r => ⟨id, id, .inl, .inl⟩

/-- What every statement of a call keeps. -/
theorem callStep_keeps {P : Cluster → Prop} (call : Call)
    (hcreate : ∀ c c', P c → (Statement.createRole call.name call.password).exec takes c = some c' → P c')
    (halter : call.strict = false →
      ∀ c c', P c → (Statement.alterRole call.name call.password).exec takes c = some c' → P c')
    (hgrant : ∀ c c', P c → (Statement.grant db call.name).exec takes c = some c' → P c')
    (hrevoke : ∀ c c', P c → (Statement.revoke db).exec takes c = some c' → P c') (h : P c) :
    P (callStep takes db c call) := by
  have hkeeps : ∀ statement : Statement,
      (∀ c c', P c → statement.exec takes c = some c' → P c') →
      P (executeAll takes c [(statement, call.faults .role), (.grant db call.name, call.faults .grant),
        (.revoke db, call.faults .revoke)]).1 := by
    intro statement hstatement
    refine executeAll_keeps (fun s hs => ?_) h
    simp only [List.mem_cons, List.not_mem_nil, or_false] at hs
    obtain rfl | rfl | rfl := hs
    · exact hstatement
    · exact hgrant
    · exact hrevoke
  unfold callStep Call.perform
  by_cases hstrict : call.strict
  · rw [if_pos hstrict, provisionRole]
    split
    · exact h
    · split
      · exact h
      · exact hkeeps _ hcreate
  · rw [if_neg hstrict, ensureRole]
    rw [Bool.not_eq_true] at hstrict
    split
    · exact h
    · cases hexists : (c.roles call.name).isSome with
      | true => exact hkeeps _ (halter hstrict)
      | false => exact hkeeps _ hcreate

theorem Within.callStep {calls : List Call} {call : Call} (h : Within db calls c₀ c) (hmem : call ∈ calls) :
    Within db calls c₀ (callStep takes db c call) := by
  refine callStep_keeps call ?_ ?_ ?_ ?_ h
  · exact fun c c' hc hexec => hc.exec hexec ⟨call, hmem, rfl, rfl⟩
  · exact fun hstrict c c' hc hexec => hc.exec hexec ⟨call, hmem, hstrict, rfl, rfl⟩
  · exact fun c c' hc hexec => hc.exec hexec ⟨rfl, call, hmem, rfl⟩
  · exact fun c c' hc hexec => hc.exec hexec (show db = db from rfl)

/-! ## What a call promises -/

/-- No statement takes it back. -/
theorem Ready.exec (h : Ready db name c) (hexec : statement.exec takes c = some c') : Ready db name c' := by
  obtain ⟨role, hrole, hlogin⟩ := h.login
  obtain ⟨d, hd, hpublic, hconnect, hcreate⟩ := h.privileges
  cases statement with
  | createRole other password =>
    obtain ⟨-, hnone, rfl⟩ := exec_createRole hexec
    have hne : name ≠ other := by
      rintro rfl
      rw [hnone] at hrole
      cases hrole
    exact ⟨⟨role, (Cluster.roles_setRole_of_ne hne).trans hrole, hlogin⟩, h.privileges⟩
  | alterRole other password =>
    obtain ⟨-, role', hrole', rfl⟩ := exec_alterRole hexec
    refine ⟨?_, h.privileges⟩
    by_cases heq : name = other
    · exact ⟨role'.altered password, by rw [heq, Cluster.roles_setRole_self], rfl⟩
    · exact ⟨role, (Cluster.roles_setRole_of_ne heq).trans hrole, hlogin⟩
  | grant database other =>
    obtain ⟨-, d', hd', rfl⟩ := exec_grant hexec
    refine ⟨h.login, ?_⟩
    by_cases heq : db = database
    · subst heq
      obtain rfl := Option.some.inj (hd'.symm.trans hd)
      exact ⟨d'.granted other, Cluster.databases_setDatabase_self, hpublic, update_true hconnect, update_true hcreate⟩
    · exact ⟨d, (Cluster.databases_setDatabase_of_ne heq).trans hd, hpublic, hconnect, hcreate⟩
  | revoke database =>
    obtain ⟨d', hd', rfl⟩ := exec_revoke hexec
    refine ⟨h.login, ?_⟩
    by_cases heq : db = database
    · subst heq
      obtain rfl := Option.some.inj (hd'.symm.trans hd)
      exact ⟨d'.revoked, Cluster.databases_setDatabase_self, rfl, hconnect, hcreate⟩
    · exact ⟨d, (Cluster.databases_setDatabase_of_ne heq).trans hd, hpublic, hconnect, hcreate⟩

theorem HasPassword.update {other : Name} {role : PgRole} (h : HasPassword name password c)
    (hother : name = other → role.password = password) :
    HasPassword name password (c.setRole other role) := by
  by_cases heq : name = other
  · exact ⟨role, by rw [heq, Cluster.roles_setRole_self], hother heq⟩
  · obtain ⟨role', hrole', hpassword⟩ := h
    exact ⟨role', (Cluster.roles_setRole_of_ne heq).trans hrole', hpassword⟩

theorem hasPassword_callStep {call : Call} (h : HasPassword name password c)
    (hother : call.name = name → call.strict = true) : HasPassword name password (callStep takes db c call) := by
  refine callStep_keeps call (fun c c' hc hexec => ?_) (fun hstrict c c' hc hexec => ?_) (fun c c' hc hexec => ?_)
    (fun c c' hc hexec => ?_) h
  · obtain ⟨-, hnone, rfl⟩ := exec_createRole hexec
    refine hc.update fun heq => ?_
    obtain ⟨role, hrole, -⟩ := hc
    rw [heq, hnone] at hrole
    cases hrole
  · obtain ⟨-, role, -, rfl⟩ := exec_alterRole hexec
    refine hc.update fun heq => ?_
    rw [hother heq.symm] at hstrict
    cases hstrict
  · obtain ⟨-, d, -, rfl⟩ := exec_grant hexec
    exact hc
  · obtain ⟨d, -, rfl⟩ := exec_revoke hexec
    exact hc

theorem executeAll_ready {role : PgRole} (hrole : c.roles name = some role) (hlogin : role.login = true)
    {o o' : Outcome} (hok : (executeAll takes c [(.grant db name, o), (.revoke db, o')]).2 = .ok ()) :
    Ready db name (executeAll takes c [(.grant db name, o), (.revoke db, o')]).1 ∧
      (executeAll takes c [(.grant db name, o), (.revoke db, o')]).1.roles = c.roles := by
  obtain ⟨c₁, hgrant, hrest⟩ := executeAll_ok hok
  rw [hrest] at hok ⊢
  obtain ⟨c₂, hrevoke, hend⟩ := executeAll_ok hok
  rw [hend, executeAll]
  obtain ⟨-, d, hd, rfl⟩ := exec_grant hgrant
  obtain ⟨d', hd', rfl⟩ := exec_revoke hrevoke
  rw [Cluster.databases_setDatabase_self] at hd'
  obtain rfl := Option.some.inj hd'
  refine ⟨⟨⟨role, hrole, hlogin⟩, (d.granted name).revoked, Cluster.databases_setDatabase_self, rfl, ?_, ?_⟩, rfl⟩
  · exact Function.update_self ..
  · exact Function.update_self ..

/-- What a call that does not raise has done. -/
theorem ready_of_perform {call : Call} (hok : (call.perform takes db c).2 = .ok ()) :
    Ready db call.name (callStep takes db c call) ∧ HasPassword call.name call.password (callStep takes db c call) := by
  have hcreate : ∀ {o o' o'' : Outcome},
      (executeAll takes c [(.createRole call.name call.password, o), (.grant db call.name, o'),
        (.revoke db, o'')]).2 = .ok () →
      Ready db call.name (executeAll takes c [(.createRole call.name call.password, o), (.grant db call.name, o'),
        (.revoke db, o'')]).1 ∧
      HasPassword call.name call.password (executeAll takes c [(.createRole call.name call.password, o),
        (.grant db call.name, o'), (.revoke db, o'')]).1 := by
    intro o o' o'' hok
    obtain ⟨c₁, hexec, hrest⟩ := executeAll_ok hok
    rw [hrest] at hok ⊢
    obtain ⟨-, -, rfl⟩ := exec_createRole hexec
    obtain ⟨hready, hroles⟩ := executeAll_ready Cluster.roles_setRole_self rfl hok
    exact ⟨hready, newRole call.password, by rw [hroles, Cluster.roles_setRole_self], rfl⟩
  unfold callStep
  rw [Call.perform] at hok ⊢
  by_cases hstrict : call.strict
  · rw [if_pos hstrict, provisionRole] at hok ⊢
    by_cases hconnect : call.faults .connect ≠ .done ∨ call.faults .select ≠ .done
    · rw [if_pos hconnect] at hok
      cases hok
    · rw [if_neg hconnect] at hok ⊢
      by_cases hexists : (c.roles call.name).isSome
      · rw [if_pos hexists] at hok
        cases hok
      · rw [if_neg hexists] at hok ⊢
        exact hcreate hok
  · rw [if_neg hstrict, ensureRole] at hok ⊢
    by_cases hconnect : call.faults .connect ≠ .done ∨ call.faults .select ≠ .done
    · rw [if_pos hconnect] at hok
      cases hok
    · rw [if_neg hconnect] at hok ⊢
      by_cases hexists : (c.roles call.name).isSome
      · simp only [if_pos hexists] at hok ⊢
        obtain ⟨c₁, hexec, hrest⟩ := executeAll_ok hok
        rw [hrest] at hok ⊢
        obtain ⟨-, role, hrole, rfl⟩ := exec_alterRole hexec
        obtain ⟨hready, hroles⟩ := executeAll_ready Cluster.roles_setRole_self rfl hok
        exact ⟨hready, role.altered call.password, by rw [hroles, Cluster.roles_setRole_self], rfl⟩
      · simp only [if_neg hexists] at hok ⊢
        exact hcreate hok

theorem hasPassword_run {calls : List Call} (h : HasPassword name password c)
    (hothers : ∀ call ∈ calls, call.name = name → call.strict = true) :
    HasPassword name password (run (callStep takes db) c calls) := by
  induction calls generalizing c with
  | nil => exact h
  | cons call calls ih =>
    rw [List.forall_mem_cons] at hothers
    exact ih (hasPassword_callStep h hothers.1) hothers.2

theorem within_run {calls rest : List Call} (hsub : ∀ call ∈ rest, call ∈ calls) (h : Within db calls c₀ c) :
    Within db calls c₀ (run (callStep takes db) c rest) := by
  induction rest generalizing c with
  | nil => exact h
  | cons call rest ih =>
    rw [List.forall_mem_cons] at hsub
    exact ih hsub.2 (h.callStep hsub.1)

theorem ready_run (h : Ready db name c) (calls : List Call) : Ready db name (run (callStep takes db) c calls) := by
  refine run_invariant_of_forall (fun c call hc => ?_) h calls
  exact callStep_keeps call (fun _ _ h => h.exec) (fun _ _ _ h => h.exec) (fun _ _ h => h.exec)
    (fun _ _ h => h.exec) hc

/-- In every run of the two commands, whatever fails in it, the roles get no other privileges than CONNECT and CREATE
on the one database; and what a call that does not raise has promised holds from then on, its password until
`ensure_role` is given another one. -/
theorem leastPrivilege_of_run (takes : Name → List Char → Bool) (db : Name) (c₀ : Cluster) (calls : List Call) :
    Within db calls c₀ (run (callStep takes db) c₀ calls) ∧
      ∀ before call after, calls = before ++ call :: after →
        (call.perform takes db (run (callStep takes db) c₀ before)).2 = .ok () →
        Ready db call.name (run (callStep takes db) c₀ calls) ∧
          ((∀ later ∈ after, later.name = call.name → later.strict = true) →
            HasPassword call.name call.password (run (callStep takes db) c₀ calls)) := by
  constructor
  · exact within_run (fun _ h => h) (within_refl calls)
  · rintro before call after rfl hok
    obtain ⟨hready, hpassword⟩ := ready_of_perform hok
    rw [run_append, run_cons]
    exact ⟨ready_run hready after, hasPassword_run hpassword⟩

/-- A server with the database of the tenants. -/
def exampleCluster : Cluster :=
  ⟨fun _ => none, fun d => if d = "tenant".toList then some ⟨true, fun _ => false, fun _ => false⟩ else none⟩

/-- The role of the application. -/
def exampleCall : Call := ⟨true, "app".toList, "secret".toList, fun _ => .done⟩

/-- A role that is provisioned is ready. -/
theorem leastPrivilege_of_run_app :
    Ready "tenant".toList "app".toList (run (callStep (fun _ _ => true) "tenant".toList) exampleCluster
      [exampleCall]) := by
  have hok : (exampleCall.perform (fun _ _ => true) "tenant".toList exampleCluster).2 = .ok () := rfl
  exact ((leastPrivilege_of_run _ _ _ _).2 [] exampleCall [] rfl hok).1

/-! ## Repairs -/

/-- The first statement of `ensure_role`. -/
def roleStatement (c : Cluster) (name : Name) (password : List Char) : Statement :=
  if (c.roles name).isSome then .alterRole name password else .createRole name password

/-- `ensure_role` as a script. -/
def ensureScript (takes : Name → List Char → Bool) (db name : Name) (password : List Char) :
    List (Cluster → Option Cluster) :=
  [fun c => (roleStatement c name password).exec takes c, (Statement.grant db name).exec takes,
    (Statement.revoke db).exec takes]

theorem exec_roleStatement (h : (roleStatement c name password).exec takes c = some c') :
    takes name password = true ∧ ∃ role : PgRole, role.altered password = role ∧ c' = c.setRole name role := by
  unfold roleStatement at h
  by_cases hexists : (c.roles name).isSome
  · rw [if_pos hexists] at h
    obtain ⟨htakes, role, -, heq⟩ := exec_alterRole h
    exact ⟨htakes, role.altered password, rfl, heq⟩
  · rw [if_neg hexists] at h
    obtain ⟨htakes, -, heq⟩ := exec_createRole h
    exact ⟨htakes, newRole password, rfl, heq⟩

theorem role_settled (htakes : takes name password = true) {role : PgRole} (hrole : c.roles name = some role)
    (hsame : role.altered password = role) : (roleStatement c name password).exec takes c = some c := by
  have hexists : (c.roles name).isSome = true := by rw [hrole, Option.isSome_some]
  rw [roleStatement, if_pos hexists, Statement.exec, if_pos htakes, hrole, Option.map_some, hsame]
  exact congrArg some (Cluster.setRole_eq_self hrole)

theorem grant_settled {d : PgDatabase} (hexists : (c.roles name).isSome = true) (hd : c.databases db = some d)
    (hsame : d.granted name = d) : (Statement.grant db name).exec takes c = some c := by
  rw [Statement.exec, if_pos hexists, hd, Option.map_some, hsame]
  exact congrArg some (Cluster.setDatabase_eq_self hd)

theorem revoke_settled {d : PgDatabase} (hd : c.databases db = some d) (hsame : d.revoked = d) :
    (Statement.revoke db).exec takes c = some c := by
  rw [Statement.exec, hd, Option.map_some, hsame]
  exact congrArg some (Cluster.setDatabase_eq_self hd)

theorem granted_granted (d : PgDatabase) : (d.granted name).granted name = d.granted name := by
  rw [PgDatabase.granted, PgDatabase.granted, Function.update_idem, Function.update_idem]

/-- What the settled statements say of the server. -/
theorem settled_cases (takes : Name → List Char → Bool) (db name : Name) (password : List Char) (c : Cluster) :
    ((roleStatement c name password).exec takes c = some c ↔
        takes name password = true ∧ ∃ role, c.roles name = some role ∧ role.altered password = role) ∧
      ((Statement.grant db name).exec takes c = some c ↔
        (c.roles name).isSome = true ∧ ∃ d, c.databases db = some d ∧ d.granted name = d) ∧
      ((Statement.revoke db).exec takes c = some c ↔ ∃ d, c.databases db = some d ∧ d.revoked = d) := by
  refine ⟨⟨fun h => ?_, ?_⟩, ⟨fun h => ?_, ?_⟩, ⟨fun h => ?_, ?_⟩⟩
  · obtain ⟨htakes, role, hsame, heq⟩ := exec_roleStatement h
    refine ⟨htakes, role, ?_, hsame⟩
    rw [heq, Cluster.roles_setRole_self]
  · rintro ⟨htakes, role, hrole, hsame⟩
    exact role_settled htakes hrole hsame
  · obtain ⟨hexists, d, hd, heq⟩ := exec_grant h
    refine ⟨hexists, d, hd, ?_⟩
    rw [heq, Cluster.databases_setDatabase_self] at hd
    exact Option.some.inj hd
  · rintro ⟨hexists, d, hd, hsame⟩
    exact grant_settled hexists hd hsame
  · obtain ⟨d, hd, heq⟩ := exec_revoke h
    refine ⟨d, hd, ?_⟩
    rw [heq, Cluster.databases_setDatabase_self] at hd
    exact Option.some.inj hd
  · rintro ⟨d, hd, hsame⟩
    exact revoke_settled hd hsame

theorem restartable_ensureScript (takes : Name → List Char → Bool) (db name : Name) (password : List Char) :
    Restartable (ensureScript takes db name password) where
  settles := by
    intro f hf s s' h
    simp only [ensureScript, List.mem_cons, List.not_mem_nil, or_false] at hf
    obtain rfl | rfl | rfl := hf
    · obtain ⟨htakes, role, hsame, rfl⟩ := exec_roleStatement h
      exact role_settled htakes Cluster.roles_setRole_self hsame
    · obtain ⟨hexists, d, -, rfl⟩ := exec_grant h
      exact grant_settled hexists Cluster.databases_setDatabase_self (granted_granted d)
    · obtain ⟨d, -, rfl⟩ := exec_revoke h
      exact revoke_settled Cluster.databases_setDatabase_self rfl
  keeps := by
    intro f hf g hg s s' hsettled h
    obtain ⟨hrole, hgrant, hrevoke⟩ := settled_cases takes db name password s
    simp only [ensureScript, List.mem_cons, List.not_mem_nil, or_false] at hf hg
    obtain rfl | rfl | rfl := hg
    · obtain ⟨htakes, role, hsame, rfl⟩ := exec_roleStatement h
      obtain rfl | rfl | rfl := hf
      · exact role_settled htakes Cluster.roles_setRole_self hsame
      · obtain ⟨-, d, hd, hgranted⟩ := hgrant.mp hsettled
        exact grant_settled (by rw [Cluster.roles_setRole_self, Option.isSome_some]) hd hgranted
      · obtain ⟨d, hd, hrevoked⟩ := hrevoke.mp hsettled
        exact revoke_settled hd hrevoked
    · obtain ⟨hexists, d, hd, rfl⟩ := exec_grant h
      obtain rfl | rfl | rfl := hf
      · obtain ⟨htakes, role, hrole, hsame⟩ := hrole.mp hsettled
        exact role_settled htakes hrole hsame
      · exact grant_settled hexists Cluster.databases_setDatabase_self (granted_granted d)
      · obtain ⟨d', hd', hrevoked⟩ := hrevoke.mp hsettled
        obtain rfl := Option.some.inj (hd.symm.trans hd')
        refine revoke_settled Cluster.databases_setDatabase_self ?_
        show d.revoked.granted name = d.granted name
        rw [hrevoked]
    · obtain ⟨d, hd, rfl⟩ := exec_revoke h
      obtain rfl | rfl | rfl := hf
      · obtain ⟨htakes, role, hrole, hsame⟩ := hrole.mp hsettled
        exact role_settled htakes hrole hsame
      · obtain ⟨hexists, d', hd', hgranted⟩ := hgrant.mp hsettled
        obtain rfl := Option.some.inj (hd.symm.trans hd')
        refine grant_settled hexists Cluster.databases_setDatabase_self ?_
        show (d.granted name).revoked = d.revoked
        rw [hgranted]
      · exact revoke_settled Cluster.databases_setDatabase_self rfl

/-- A list of statements runs through a part of the script, wherever it stops. -/
theorem executeAll_stops (takes : Name → List Char → Bool) (c : Cluster) (fs : List (Cluster → Option Cluster))
    (statements : List (Statement × Outcome)) (hsame : fs = statements.map fun s => s.1.exec takes) :
    ∃ before after, fs = before ++ after ∧
      runScript c before = ((executeAll takes c statements).1, true) := by
  induction statements generalizing c fs with
  | nil => exact ⟨[], fs, rfl, rfl⟩
  | cons s rest ih =>
    obtain ⟨statement, outcome⟩ := s
    rw [List.map_cons] at hsame
    subst hsame
    rw [executeAll]
    obtain hstop | ⟨c', hexec, hlost | hdone⟩ := execute_cases takes c statement outcome
    · rw [hstop]
      exact ⟨[], _, rfl, rfl⟩
    · rw [hlost]
      exact ⟨[statement.exec takes], _, rfl, runScript_done hexec⟩
    · rw [hdone]
      obtain ⟨before, after, happend, hbefore⟩ := ih c' _ rfl
      refine ⟨statement.exec takes :: before, after, by rw [happend]; rfl, ?_⟩
      rw [runScript_done hexec]
      exact hbefore

/-- The script from a state: its first statement is what it is there. -/
theorem executeAll_script {before after fs : List (Cluster → Option Cluster)} {f : Cluster → Option Cluster}
    (hsplit : f :: fs = before ++ after) {f' : Cluster → Option Cluster} (hf : f' c = f c)
    (h : runScript c before = (c', true)) :
    ∃ before after, f' :: fs = before ++ after ∧ runScript c before = (c', true) := by
  cases before with
  | nil => exact ⟨[], f' :: fs, rfl, h⟩
  | cons g before =>
    rw [List.cons_append, List.cons.injEq] at hsplit
    obtain ⟨rfl, rfl⟩ := hsplit
    refine ⟨f' :: before, after, rfl, ?_⟩
    rw [runScript] at h ⊢
    rw [hf]
    exact h

theorem callStep_stops (takes : Name → List Char → Bool) (db : Name) (c : Cluster) (call : Call)
    (hname : call.name = name) (hpassword : call.password = password) :
    ∃ before after, ensureScript takes db name password = before ++ after ∧
      runScript c before = (callStep takes db c call, true) := by
  subst hname hpassword
  have hstatements : ∃ before after, ensureScript takes db call.name call.password = before ++ after ∧
      runScript c before = ((executeAll takes c [(roleStatement c call.name call.password, call.faults .role),
        (.grant db call.name, call.faults .grant), (.revoke db, call.faults .revoke)]).1, true) := by
    obtain ⟨before, after, happend, hbefore⟩ := executeAll_stops takes c _
      [(roleStatement c call.name call.password, call.faults .role), (.grant db call.name, call.faults .grant),
        (.revoke db, call.faults .revoke)] rfl
    exact executeAll_script happend rfl hbefore
  have hnothing : ∃ before after, ensureScript takes db call.name call.password = before ++ after ∧
      runScript c before = (c, true) := ⟨[], _, rfl, rfl⟩
  unfold callStep Call.perform
  by_cases hstrict : call.strict
  · rw [if_pos hstrict, provisionRole]
    split
    · exact hnothing
    · by_cases hexists : (c.roles call.name).isSome
      · rw [if_pos hexists]
        exact hnothing
      · rw [if_neg hexists]
        rw [roleStatement, if_neg hexists] at hstatements
        exact hstatements
  · rw [if_neg hstrict, ensureRole]
    split
    · exact hnothing
    · exact hstatements

/-- Without faults a list of statements is a script. -/
theorem executeAll_done (takes : Name → List Char → Bool) (c : Cluster) (fs : List (Cluster → Option Cluster))
    (statements : List Statement) (hsame : fs = statements.map fun s => s.exec takes) :
    executeAll takes c (statements.map fun s => (s, .done)) =
      ((runScript c fs).1, if (runScript c fs).2 then .ok () else .error .couldNotProvision) := by
  induction statements generalizing c fs with
  | nil =>
    subst hsame
    rfl
  | cons s rest ih =>
    subst hsame
    rw [List.map_cons, List.map_cons, executeAll, execute]
    cases hexec : s.exec takes c with
    | none =>
      rw [runScript_refused hexec]
      rfl
    | some c' =>
      rw [runScript_done hexec]
      exact ih c' _ rfl

theorem ensureRole_eq (c : Cluster) :
    ensureRole takes db (fun _ => .done) c name password =
      ((runScript c (ensureScript takes db name password)).1,
        if (runScript c (ensureScript takes db name password)).2 then .ok () else .error .couldNotProvision) := by
  have hdone := executeAll_done takes c _
    [roleStatement c name password, .grant db name, .revoke db] rfl
  have hscript : runScript c (ensureScript takes db name password) =
      runScript c ([roleStatement c name password, Statement.grant db name, Statement.revoke db].map
        fun s => s.exec takes) := rfl
  rw [hscript]
  exact hdone

/-- However often either command was interrupted at any of its steps, a call of `ensure_role` that is not leaves the
server, and ends, as if it had been the only one. -/
theorem ensureRole_of_attempts (takes : Name → List Char → Bool) (db name : Name) (password : List Char) (c : Cluster)
    (attempts : List (Bool × Faults)) :
    ensureRole takes db (fun _ => .done)
        (run (callStep takes db) c (attempts.map fun a => ⟨a.1, name, password, a.2⟩)) name password =
      ensureRole takes db (fun _ => .done) c name password := by
  have hsame : run (callStep takes db) c (attempts.map fun a => ⟨a.1, name, password, a.2⟩) =
      run (fun c (a : Bool × Faults) => callStep takes db c ⟨a.1, name, password, a.2⟩) c attempts := List.foldl_map
  have hscript := (restartable_ensureScript takes db name password).runScript_of_attempts
    (fun c (a : Bool × Faults) => callStep_stops takes db c ⟨a.1, name, password, a.2⟩ rfl rfl)
    c attempts
  rw [hsame, ensureRole_eq, ensureRole_eq, hscript]

end TenantRole
