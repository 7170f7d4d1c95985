import IntraCloud.System.Credentials
import IntraCloud.System.Proofs.AuditProofs

/-!
# Where credentials go

A password is only ever sent to the host, port, database and user for which somebody who managed the connections of the
organization submitted it.
-/

namespace System

open Audit Databases Organizations Permissions Sharing Transition

variable {ρ : Type} {credentials : Credentials} {p : Platform} {ms ms' : List (Moment ρ)} {m : Moment ρ}
  {c c' : ConnectedDatabase} {params : ConnectionParams} {out : Connector} {s : Site}

/-! ## Rows -/

theorem connectedDatabases_recordThen (s : Site) (e : AuditEvent) (result : Except ConnectionError Unit) :
    (s.recordThen e result).1.connectedDatabases = s.connectedDatabases := by
  rw [fst_recordThen]
  rfl

/-- A new row is one that a manager submitted and that was dialled with success. -/
theorem mem_createConnectedDatabase {actor : Uuid} {project : Project} {spec : ConnectionSpec} {requestId : String}
    (h : c ∈ (createConnectedDatabase out s actor project spec requestId).1.connectedDatabases) :
    c ∈ s.connectedDatabases ∨
      c = newConnection out s actor project spec ∧ out.testConnection spec.params = .ok () ∧
        hasPermission s.tables s.now actor "connection.manage" project.organization none = true := by
  unfold createConnectedDatabase at h
  obtain ⟨hpermission, hrequire⟩ | ⟨-, e, hrequire⟩ :=
    requireConnection_cases s actor project.organization "connection.create" none requestId
  · rw [hrequire] at h
    dsimp only at h
    split at h
    · exact .inl h
    split at h
    · exact .inl h
    cases htest : out.testConnection spec.params with
    | error message =>
      rw [htest] at h
      dsimp only at h
      rw [connectedDatabases_recordThen] at h
      exact .inl h
    | ok _ =>
      rw [htest] at h
      dsimp only at h
      split at h
      · exact .inl h
      · rw [connectedDatabases_recordThen] at h
        rcases List.mem_append.mp h with hold | hnew
        · exact .inl hold
        · exact .inr ⟨List.mem_singleton.mp hnew, rfl, hpermission⟩
  · rw [hrequire] at h
    exact .inl h

/-- A test changes at most the outcome of the last one. -/
theorem mem_testConnectedDatabase {actor organization : Uuid} {requestId : String}
    (h : c' ∈ (testConnectedDatabase out s actor organization c requestId).1.connectedDatabases) :
    c' ∈ s.connectedDatabases ∨
      ∃ password, out.decryptCredential c.encryptedPassword = some password ∧
        c' = c.tested s.now (out.testConnection (c.params password)) := by
  unfold testConnectedDatabase at h
  obtain ⟨-, hrequire⟩ | ⟨-, e, hrequire⟩ :=
    requireConnection_cases s actor organization "connection.test" (some c.id) requestId
  · rw [hrequire] at h
    dsimp only at h
    split at h
    · exact .inl h
    cases hdecrypt : out.decryptCredential c.encryptedPassword with
    | none =>
      rw [hdecrypt] at h
      exact .inl h
    | some password =>
      rw [hdecrypt] at h
      dsimp only at h
      split at h
      · exact .inl h
      · rw [connectedDatabases_recordThen] at h
        obtain ⟨x, hx, heq⟩ := List.mem_map.mp h
        split at heq
        · exact .inr ⟨password, rfl, heq.symm⟩
        · rw [← heq]
          exact .inl hx
  · rw [hrequire] at h
    exact .inl h

theorem mem_deleteConnectedDatabase {actor organization : Uuid} {requestId : String}
    (h : c' ∈ (deleteConnectedDatabase s actor organization c requestId).1.connectedDatabases) :
    c' ∈ s.connectedDatabases := by
  unfold deleteConnectedDatabase at h
  obtain ⟨-, hrequire⟩ | ⟨-, e, hrequire⟩ :=
    requireConnection_cases s actor organization "connection.delete" (some c.id) requestId
  · rw [hrequire] at h
    dsimp only at h
    rw [connectedDatabases_recordThen] at h
    exact (List.mem_filter.mp h).1
  · rw [hrequire] at h
    exact h

theorem connectedDatabases_setExternalSharing (feature : Bool) (p : Platform) (actor organization : Uuid)
    (enabled : Bool) (requestId : String) :
    (setExternalSharingEnabled feature p actor organization enabled requestId).1.connectedDatabases =
      p.connectedDatabases := by
  obtain ⟨-, h⟩ | ⟨-, -, h⟩ | ⟨-, -, h⟩ :=
    setExternalSharingEnabled_outcome feature p actor organization enabled requestId
  · rw [h]
    rfl
  · rw [h]
  · rw [h]
    rfl

theorem requireRead_cases (s : Site) (actor organization : Uuid) (action : String) (resourceId : Uuid)
    (requestId : String) :
    (hasPermission s.tables s.now actor "database.read" organization
        (some (RESOURCE_TYPE_CONNECTED_DATABASE, resourceId)) = true ∧
      requireRead s actor organization action resourceId requestId = (s, .ok ())) ∨
    (hasPermission s.tables s.now actor "database.read" organization
        (some (RESOURCE_TYPE_CONNECTED_DATABASE, resourceId)) = false ∧
      ∃ e, requireRead s actor organization action resourceId requestId =
        (LoggedSite s (connectionDenied actor organization action (some resourceId) requestId), .error e)) := by
  unfold requireRead
  split
  · rename_i hpermission
    exact .inl ⟨hpermission, rfl⟩
  · rename_i hpermission
    refine .inr ⟨by simpa using hpermission, ?_⟩
    rw [← fst_recordThen s _ (.error (.permissionDenied "database.read required"))]
    unfold Site.recordThen
    cases s.record (connectionDenied actor organization action (some resourceId) requestId) with
    | none => exact ⟨_, rfl⟩
    | some s' => exact ⟨_, rfl⟩

/-- What the reading calls begin with changes no row and gives what is stored. -/
theorem readParams_cases (credentials : Credentials) (s : Site) (actor organization : Uuid) (c : ConnectedDatabase)
    (action requestId : String) :
    (readParams credentials s actor organization c action requestId).1.connectedDatabases = s.connectedDatabases ∧
      ∀ params, (readParams credentials s actor organization c action requestId).2 = .ok params →
        hasPermission s.tables s.now actor "database.read" organization
            (some (RESOURCE_TYPE_CONNECTED_DATABASE, c.id)) = true ∧ params ∈ storedParams credentials c := by
  unfold readParams
  obtain ⟨hpermission, hrequire⟩ | ⟨-, e, hrequire⟩ :=
    requireRead_cases s actor organization action c.id requestId
  · rw [hrequire]
    dsimp only
    by_cases hengine : supportedEngine c.engine
    · rw [hengine]
      cases hdecrypt : credentials.decryptCredential c.encryptedPassword with
      | none => exact ⟨rfl, fun params h => nomatch h⟩
      | some password =>
        refine ⟨rfl, fun params h => ⟨hpermission, ?_⟩⟩
        rw [storedParams, if_pos hengine, hdecrypt, Option.toList_some, List.map_singleton, ← Except.ok.inj h]
        exact List.mem_singleton_self _
    · rw [Bool.not_eq_true] at hengine
      rw [hengine]
      exact ⟨rfl, fun params h => nomatch h⟩
  · rw [hrequire]
    exact ⟨rfl, fun params h => nomatch h⟩

/-- Every request: an old row, a new one, or one with another outcome of its last test. -/
theorem mem_serve {out : Deployment} {actor : Uuid} {requestId : String} {req : Request}
    (h : c' ∈ (serve out p actor requestId req).1.connectedDatabases) :
    c' ∈ p.connectedDatabases ∨
      (∃ projectId spec project, req = .createConnection projectId spec ∧
        getMemberProject p.toState actor projectId = some project ∧
        c' = newConnection out.connector p.toSite actor project spec ∧
        out.connector.testConnection spec.params = .ok () ∧
        hasPermission p.tables p.now actor "connection.manage" project.organization none = true) ∨
      ∃ c ∈ p.connectedDatabases, ∃ password,
        out.connector.decryptCredential c.encryptedPassword = some password ∧
        c' = c.tested p.now (out.connector.testConnection (c.params password)) := by
  cases req with
  | schema r => exact .inl h
  | createConnection projectId spec =>
    unfold serve at h
    dsimp only at h
    cases hproject : getMemberProject p.toState actor projectId with
    | none =>
      rw [hproject] at h
      exact .inl h
    | some project =>
      rw [hproject] at h
      obtain hold | ⟨hnew, htest, hpermission⟩ := mem_createConnectedDatabase h
      · exact .inl hold
      · exact .inr (.inl ⟨projectId, spec, project, rfl, hproject, hnew, htest, hpermission⟩)
  | testConnection id =>
    unfold serve at h
    dsimp only at h
    cases hmember : getMemberConnectedDatabase p.toSite actor id with
    | none =>
      rw [hmember] at h
      exact .inl h
    | some found =>
      obtain ⟨c, organization⟩ := found
      rw [hmember] at h
      obtain hold | ⟨password, hdecrypt, htested⟩ := mem_testConnectedDatabase h
      · exact .inl hold
      · exact .inr (.inr ⟨c, getMemberConnectedDatabase_mem hmember, password, hdecrypt, htested⟩)
  | deleteConnection id =>
    unfold serve at h
    dsimp only at h
    cases hmember : getMemberConnectedDatabase p.toSite actor id with
    | none =>
      rw [hmember] at h
      exact .inl h
    | some found =>
      obtain ⟨c, organization⟩ := found
      rw [hmember] at h
      exact .inl (mem_deleteConnectedDatabase h)
  | createShare r => exact .inl h
  | revokeShare shareId => exact .inl h
  | setExternalSharing organization enabled =>
    unfold serve at h
    dsimp only at h
    split at h
    · exact .inl h
    · left
      have hsame := connectedDatabases_setExternalSharing out.externalSharing p actor organization enabled requestId
      rw [← hsame]
      exact h
  | writeRow tableId =>
    unfold serve at h
    dsimp only at h
    left
    split at h
    · exact h
    · split at h
      · exact h
      · exact h

theorem connectedDatabases_serveBrowse (reach : Reach ρ) (credentials : Credentials) (p : Platform) (actor : Uuid)
    (requestId : String) (b : Browse) :
    (serveBrowse reach credentials p actor requestId b).1.connectedDatabases = p.connectedDatabases := by
  unfold serveBrowse
  cases hmember : getMemberConnectedDatabase p.toSite actor b.id with
  | none => rfl
  | some found =>
    obtain ⟨c, organization⟩ := found
    cases b with
    | schema id =>
      have hkept := (readParams_cases credentials p.toSite actor organization c "connection.schema.read" requestId).1
      dsimp only
      rw [getConnectedDatabaseSchema]
      cases hread : readParams credentials p.toSite actor organization c "connection.schema.read" requestId with
      | mk s result =>
        rw [hread] at hkept
        cases result with
        | error e => exact hkept
        | ok params =>
          dsimp only
          cases introspectSchema reach params with
          | error message => exact hkept
          | ok tables => exact hkept
    | rows id tableName limit offset =>
      have hkept := (readParams_cases credentials p.toSite actor organization c "connection.rows.read" requestId).1
      dsimp only
      rw [listConnectedDatabaseRows]
      cases hread : readParams credentials p.toSite actor organization c "connection.rows.read" requestId with
      | mk s result =>
        rw [hread] at hkept
        cases result with
        | error e => exact hkept
        | ok params =>
          dsimp only
          cases introspectSchema reach params with
          | error message => exact hkept
          | ok tables =>
            dsimp only
            by_cases hknown : tables.any fun t => t.name == tableName
            · rw [if_pos hknown]
              cases listExternalRows reach params tableName limit offset with
              | error message => exact hkept
              | ok rows => exact hkept
            · rw [if_neg hknown]
              exact hkept

/-! ## Runs -/

/-- The rows after a moment. -/
theorem mem_momentStep (h : c' ∈ (momentStep credentials p m).connectedDatabases) :
    c' ∈ p.connectedDatabases ∨
      (∃ actor incoming generated projectId spec project,
        m.occurrence = .act (.request actor incoming generated (.createConnection projectId spec)) ∧
        getMemberProject p.toState actor projectId = some project ∧
        c' = newConnection (connectorOf m.reach credentials) p.toSite actor project spec ∧
        testConnection m.reach spec.params = .ok () ∧
        hasPermission p.tables p.now actor "connection.manage" project.organization none = true) ∨
      ∃ c ∈ p.connectedDatabases, ∃ password, credentials.decryptCredential c.encryptedPassword = some password ∧
        c' = c.tested p.now (testConnection m.reach (c.params password)) := by
  unfold momentStep Moment.serve at h
  cases hoccurrence : m.occurrence with
  | act a =>
    rw [hoccurrence] at h
    cases a with
    | request actor incoming generated req =>
      obtain hold | ⟨projectId, spec, project, rfl, hproject, hnew, htest, hpermission⟩ | htested := mem_serve h
      · exact .inl hold
      · exact .inr (.inl ⟨actor, incoming, generated, projectId, spec, project, rfl, hproject, hnew, htest,
          hpermission⟩)
      · exact .inr (.inr htested)
    | administer => exact .inl h
    | advance => exact .inl h
  | browse actor incoming generated b =>
    rw [hoccurrence] at h
    left
    rw [← connectedDatabases_serveBrowse m.reach credentials p actor (requestId incoming generated) b]
    exact h

theorem Submitted.append (h : Submitted credentials p ms params) (ms' : List (Moment ρ)) :
    Submitted credentials p (ms ++ ms') params := by
  obtain ⟨before, m, after, actor, incoming, generated, projectId, spec, project, rfl, h⟩ := h
  refine ⟨before, m, after ++ ms', actor, incoming, generated, projectId, spec, project, ?_, h⟩
  rw [List.append_assoc, List.cons_append]

theorem Tested.append (h : Tested ms params) (ms' : List (Moment ρ)) : Tested (ms ++ ms') params := by
  obtain ⟨m, hm, htest⟩ := h
  exact ⟨m, List.mem_append_left ms' hm, htest⟩

theorem Saved.append (h : Saved credentials p ms c params) (ms' : List (Moment ρ)) :
    Saved credentials p (ms ++ ms') c params where
  submitted := h.submitted.append ms'
  tested := h.tested.append ms'
  password := h.password
  fields := h.fields
  status := h.status.imp_right fun ⟨hstatus, m, hm, htest⟩ => ⟨hstatus, m, List.mem_append_left ms' hm, htest⟩

/-- Another test of what is saved. -/
theorem Saved.tested_again (h : Saved credentials p ms c params) (hm : m ∈ ms) (now : Nat) :
    Saved credentials p ms (c.tested now (testConnection m.reach params)) params := by
  cases htest : testConnection m.reach params with
  | ok _ => exact { h with status := .inl ⟨rfl, rfl⟩ }
  | error message => exact { h with status := .inr ⟨rfl, m, hm, htest⟩ }

/-- Every row of a run. -/
theorem saved_of_run (hdecrypts : ∀ password,
    credentials.decryptCredential (credentials.encryptCredential password) = some password)
    (hnone : p.connectedDatabases = []) (ms : List (Moment ρ)) :
    ∀ c ∈ (run (momentStep credentials) p ms).connectedDatabases, ∃ params, Saved credentials p ms c params := by
  induction ms using List.reverseRecOn with
  | nil =>
    intro c hc
    rw [run_nil, hnone] at hc
    cases hc
  | append_singleton ms m ih =>
    intro c' hc'
    rw [run_append, run_cons, run_nil] at hc'
    obtain hold | ⟨actor, incoming, generated, projectId, spec, project, hoccurrence, hproject, rfl, htest,
      hpermission⟩ | ⟨c, hc, password, hdecrypt, rfl⟩ := mem_momentStep hc'
    · obtain ⟨params, hsaved⟩ := ih c' hold
      exact ⟨params, hsaved.append [m]⟩
    · refine ⟨spec.params, ?_, ?_, hdecrypts spec.password, rfl, .inl ⟨rfl, rfl⟩⟩
      · exact ⟨ms, m, [], actor, incoming, generated, projectId, spec, project, rfl, hoccurrence, rfl, hproject,
          hpermission⟩
      · exact ⟨m, List.mem_append_right ms (List.mem_singleton_self m), htest⟩
    · obtain ⟨params, hsaved⟩ := ih c hc
      have hpassword : password = params.password := Option.some.inj (hdecrypt.symm.trans hsaved.password)
      refine ⟨params, ?_⟩
      rw [hpassword, hsaved.fields]
      exact (hsaved.append [m]).tested_again (List.mem_append_right ms (List.mem_singleton_self m)) _

theorem mem_storedParams (h : params ∈ storedParams credentials c) :
    ∃ password, credentials.decryptCredential c.encryptedPassword = some password ∧ params = c.params password := by
  unfold storedParams at h
  split at h
  · obtain ⟨password, hpassword, rfl⟩ := List.mem_map.mp h
    exact ⟨password, Option.mem_toList.mp hpassword, rfl⟩
  · cases h

/-- What is dialled is being submitted, or is stored. -/
theorem mem_dials (h : params ∈ m.occurrence.dials credentials p) :
    (∃ actor incoming generated projectId spec project,
        m.occurrence = .act (.request actor incoming generated (.createConnection projectId spec)) ∧
        spec.params = params ∧ getMemberProject p.toState actor projectId = some project ∧
        hasPermission p.tables p.now actor "connection.manage" project.organization none = true) ∨
      ∃ c ∈ p.connectedDatabases, params ∈ storedParams credentials c := by
  cases hoccurrence : m.occurrence with
  | act a =>
    rw [hoccurrence] at h
    cases a with
    | administer => cases h
    | advance => cases h
    | request actor incoming generated req =>
      cases req with
      | schema r => cases h
      | createShare r => cases h
      | revokeShare shareId => cases h
      | setExternalSharing organization enabled => cases h
      | writeRow tableId => cases h
      | deleteConnection id => cases h
      | createConnection projectId spec =>
        left
        simp only [Occurrence.dials, Request.dials] at h
        cases hproject : getMemberProject p.toState actor projectId with
        | none =>
          rw [hproject] at h
          cases h
        | some project =>
          rw [hproject] at h
          dsimp only at h
          split at h
          · rename_i hguard
            rw [Bool.and_eq_true, Bool.and_eq_true] at hguard
            exact ⟨actor, incoming, generated, projectId, spec, project, rfl, (List.mem_singleton.mp h).symm, hproject,
              hguard.1.1⟩
          · cases h
      | testConnection id =>
        right
        simp only [Occurrence.dials, Request.dials] at h
        cases hmember : getMemberConnectedDatabase p.toSite actor id with
        | none =>
          rw [hmember] at h
          cases h
        | some found =>
          rw [hmember] at h
          dsimp only at h
          split at h
          · exact ⟨found.1, getMemberConnectedDatabase_mem hmember, h⟩
          · cases h
  | browse actor incoming generated b =>
    rw [hoccurrence] at h
    right
    simp only [Occurrence.dials, Browse.dials] at h
    cases hmember : getMemberConnectedDatabase p.toSite actor b.id with
    | none =>
      rw [hmember] at h
      cases h
    | some found =>
      rw [hmember] at h
      dsimp only at h
      split at h
      · exact ⟨found.1, getMemberConnectedDatabase_mem hmember, h⟩
      · cases h

/-! ## Nothing else is dialled -/

theorem testConnection_congr {reach reach' : Reach ρ} (h : reach' params = reach params) :
    testConnection reach' params = testConnection reach params := by
  rw [testConnection, h, testConnection]

theorem createConnectedDatabase_congr {reach reach' : Reach ρ} {actor : Uuid} {project : Project}
    {spec : ConnectionSpec} {requestId : String}
    (h : hasPermission s.tables s.now actor "connection.manage" project.organization none = true →
      ¬ (spec.name = "" ∨ 200 < spec.name.length) → supportedEngine spec.engine = true →
      reach' spec.params = reach spec.params) :
    createConnectedDatabase (connectorOf reach' credentials) s actor project spec requestId =
      createConnectedDatabase (connectorOf reach credentials) s actor project spec requestId := by
  unfold createConnectedDatabase
  obtain ⟨hpermission, hrequire⟩ | ⟨-, e, hrequire⟩ :=
    requireConnection_cases s actor project.organization "connection.create" none requestId
  · rw [hrequire]
    dsimp only
    by_cases hname : spec.name = "" ∨ 200 < spec.name.length
    · rw [if_pos hname, if_pos hname]
    · rw [if_neg hname, if_neg hname]
      by_cases hengine : supportedEngine spec.engine = true
      · have htest := testConnection_congr (h hpermission hname hengine)
        dsimp only [connectorOf]
        rw [htest]
        rfl
      · rw [Bool.not_eq_true] at hengine
        rw [hengine]
        rfl
  · rw [hrequire]

theorem testConnectedDatabase_congr {reach reach' : Reach ρ} {actor organization : Uuid} {requestId : String}
    (h : hasPermission s.tables s.now actor "connection.manage" organization none = true →
      ∀ params ∈ storedParams credentials c, reach' params = reach params) :
    testConnectedDatabase (connectorOf reach' credentials) s actor organization c requestId =
      testConnectedDatabase (connectorOf reach credentials) s actor organization c requestId := by
  unfold testConnectedDatabase
  obtain ⟨hpermission, hrequire⟩ | ⟨-, e, hrequire⟩ :=
    requireConnection_cases s actor organization "connection.test" (some c.id) requestId
  · rw [hrequire]
    dsimp only [connectorOf]
    by_cases hengine : supportedEngine c.engine = true
    · rw [hengine]
      cases hdecrypt : credentials.decryptCredential c.encryptedPassword with
      | none => rfl
      | some password =>
        have hstored : c.params password ∈ storedParams credentials c := by
          rw [storedParams, if_pos hengine, hdecrypt]
          exact List.mem_singleton_self _
        dsimp only
        rw [testConnection_congr (h hpermission _ hstored)]
    · rw [Bool.not_eq_true] at hengine
      rw [hengine]
      rfl
  · rw [hrequire]

theorem serveBrowse_congr {reach reach' : Reach ρ} {actor : Uuid} {requestId : String} {b : Browse}
    (h : ∀ params ∈ b.dials credentials p actor, reach' params = reach params) :
    serveBrowse reach' credentials p actor requestId b = serveBrowse reach credentials p actor requestId b := by
  unfold serveBrowse
  unfold Browse.dials at h
  cases hmember : getMemberConnectedDatabase p.toSite actor b.id with
  | none => rfl
  | some found =>
    obtain ⟨c, organization⟩ := found
    rw [hmember] at h
    dsimp only at h
    have hparams : ∀ action params,
        (readParams credentials p.toSite actor organization c action requestId).2 = .ok params →
        reach' params = reach params := by
      intro action params hread
      obtain ⟨hpermission, hstored⟩ :=
        (readParams_cases credentials p.toSite actor organization c action requestId).2 params hread
      rw [if_pos hpermission] at h
      exact h params hstored
    cases b with
    | schema id =>
      dsimp only
      rw [getConnectedDatabaseSchema, getConnectedDatabaseSchema]
      cases hread : readParams credentials p.toSite actor organization c "connection.schema.read" requestId with
      | mk s result =>
        cases result with
        | error e => rfl
        | ok params =>
          have hreach := hparams "connection.schema.read" params (by rw [hread])
          dsimp only
          rw [introspectSchema, hreach, introspectSchema]
    | rows id tableName limit offset =>
      dsimp only
      rw [listConnectedDatabaseRows, listConnectedDatabaseRows]
      cases hread : readParams credentials p.toSite actor organization c "connection.rows.read" requestId with
      | mk s result =>
        cases result with
        | error e => rfl
        | ok params =>
          have hreach := hparams "connection.rows.read" params (by rw [hread])
          dsimp only
          rw [introspectSchema, listExternalRows, hreach, introspectSchema, listExternalRows]

/-- The outside is asked for nothing but what is dialled. -/
theorem serve_of_dials (credentials : Credentials) (p : Platform) (m : Moment ρ) (reach' : Reach ρ)
    (h : ∀ params ∈ m.occurrence.dials credentials p, reach' params = m.reach params) :
    ({ m with reach := reach' } : Moment ρ).serve credentials p = m.serve credentials p := by
  obtain ⟨reach, externalSharing, occurrence⟩ := m
  dsimp only at h ⊢
  cases occurrence with
  | browse actor incoming generated b =>
    unfold Moment.serve
    dsimp only
    rw [serveBrowse_congr h]
  | act a =>
    cases a with
    | administer => rfl
    | advance => rfl
    | request actor incoming generated req =>
      unfold Moment.serve Moment.deployment
      dsimp only
      have hserve : System.serve ⟨connectorOf reach' credentials, externalSharing⟩ p actor
            (requestId incoming generated) req =
          System.serve ⟨connectorOf reach credentials, externalSharing⟩ p actor (requestId incoming generated) req := by
        cases req with
        | schema r => rfl
        | createShare r => rfl
        | revokeShare shareId => rfl
        | setExternalSharing organization enabled => rfl
        | writeRow tableId => rfl
        | deleteConnection id => rfl
        | createConnection projectId spec =>
          simp only [Occurrence.dials, Request.dials] at h
          unfold System.serve
          dsimp only
          cases hproject : getMemberProject p.toState actor projectId with
          | none => rfl
          | some project =>
            rw [hproject] at h
            dsimp only at h ⊢
            rw [createConnectedDatabase_congr fun hpermission hname hengine => ?_]
            refine h spec.params ?_
            rw [if_pos]
            · exact List.mem_singleton_self _
            · rw [hpermission, hengine]
              rw [not_or] at hname
              simp [hname.1, hname.2]
        | testConnection id =>
          simp only [Occurrence.dials, Request.dials] at h
          unfold System.serve
          dsimp only
          cases hmember : getMemberConnectedDatabase p.toSite actor id with
          | none => rfl
          | some found =>
            rw [hmember] at h
            dsimp only at h ⊢
            rw [testConnectedDatabase_congr fun hpermission => ?_]
            rw [if_pos hpermission] at h
            exact h
      rw [hserve]

/-- A database that is reached by whoever has its password. -/
def exampleReach : Reach Unit := fun params =>
  if params.password = "secret" then .ok ⟨some (), some [], fun _ => none, fun _ _ _ => none⟩
  else .error "could not connect to the external database"

/-- What the owner submits. -/
def exampleSpec : ConnectionSpec :=
  ⟨"crm", "postgresql", "db.example", 5432, "crm", "reader", "secret", "require"⟩

/-- Its owner manages the connections. -/
def managedPlatform : Platform :=
  { emptyPlatform with
    tables := { permissions := [], roleAssignments := [⟨10, ⟨"owner", ["connection.manage", "database.read"]⟩, some 1⟩],
                resourceGrants := [], audit := [] } }

/-- Credentials that are kept as they are. -/
def plainCredentials : Credentials := ⟨id, some⟩

/-- The owner connects a database. -/
def oneConnection : List (Moment Unit) :=
  [⟨exampleReach, false, .act (.request 10 (some "r-1") 7 (.createConnection 5 exampleSpec))⟩]

end System
