import IntraCloud.Databases.Proofs.AgreementProofs
import IntraCloud.Sharing.Proofs.FanOutProofs
import IntraCloud.System.Auditing

/-!
# Audit completeness

Every endpoint ends in one of four ways: nothing to record; a denial, recorded before it is raised; a
change, recorded once it is committed; or the denial of a row write, which nothing records. The two
records fail exactly where the request id is too long, so the log holds what it owes a request exactly
where the header fits or there is nothing to record.
-/

namespace System

open Audit Databases Organizations Permissions Relational Sharing Transition

/-! ## The four ways a request can end -/

/-- The log once an event has been recorded, or refused. -/
def logged (log : List AuditEvent) (e : AuditEvent) : List AuditEvent := (record log e).getD log

theorem logged_of_fits {log : List AuditEvent} {e : AuditEvent} (h : e.fits = true) :
    logged log e = log ++ [e] := by
  rw [logged, record_of_fits h, Option.getD_some]

theorem logged_of_not_fits {log : List AuditEvent} {e : AuditEvent} (h : e.fits = false) :
    logged log e = log := by
  rw [logged, record_eq_none.2 h, Option.getD_none]

/-- A row write, which no action is recorded for. -/
def Request.writesRow (req : Request) : Bool := req.action.isNone

section Outcome

variable {out : Deployment} {p : Platform} {actor : Uuid} {requestId : String} {req : Request}

/-- How a request ends, with the event it records. -/
inductive Outcome (out : Deployment) (p : Platform) (actor : Uuid) (requestId : String)
    (req : Request) : Prop where
  | quiet (hd : req.denied p actor = false) (hc : req.changes out p actor = false)
    (hrows : (serve out p actor requestId req).1.rows = p.rows)
  | denied (e : AuditEvent) (hd : req.denied p actor = true) (hw : req.writesRow = false)
    (hrows : (serve out p actor requestId req).1.rows = p.rows)
    (he : e.actor = some actor ∧ e.requestId = requestId ∧ e.result = .denied)
    (hfits : e.fits = varcharFits 64 requestId)
    (hlog : (serve out p actor requestId req).1.tables.audit = logged p.tables.audit e)
  | ignored (hd : req.denied p actor = true) (hw : req.writesRow = true)
    (hlog : (serve out p actor requestId req).1.tables.audit = p.tables.audit)
  | done (before : List AuditEvent) (e : AuditEvent) (hd : req.denied p actor = false)
    (hc : req.changes out p actor = true)
    (hrows : (serve out p actor requestId req).1.rows ≠ p.rows)
    (hbefore : ∀ x ∈ before, some x.action ≠ req.action)
    (he : e.actor = some actor ∧ e.requestId = requestId ∧ e.result = .success ∧
      some e.action = req.action)
    (hfits : e.fits = varcharFits 64 requestId)
    (hlog : (serve out p actor requestId req).1.tables.audit =
      logged (p.tables.audit ++ before) e)

/-- What the log owes a request, by the way it ends. -/
theorem Outcome.audited (h : Outcome out p actor requestId req) :
    Audited out p actor requestId req ↔
      ((req.denied p actor = true ∨ req.changes out p actor = true) →
        varcharFits 64 requestId = true) ∧
      (req.writesRow = true → req.denied p actor = false) := by
  cases h with
  | quiet hd hc hrows =>
    rw [hd, hc]
    refine ⟨fun _ => ⟨by simp, fun _ => rfl⟩, fun _ => ⟨fun hne => absurd hrows hne, ?_⟩⟩
    rw [hd]
    exact fun hden => (nomatch hden)
  | denied e hd hw hrows he hfits hlog =>
    constructor
    · intro ha
      refine ⟨fun _ => ?_, by simp [hw]⟩
      obtain ⟨x, hx, -⟩ := ha.denial hd
      by_contra hlong
      rw [Bool.not_eq_true, ← hfits] at hlong
      rw [newEvents, hlog, logged_of_not_fits hlong, List.drop_length] at hx
      cases hx
    · rintro ⟨hfit, -⟩
      refine ⟨fun hne => absurd hrows hne, fun _ => ⟨e, ?_, he⟩⟩
      rw [newEvents, hlog, logged_of_fits (hfits.trans (hfit (Or.inl hd))), List.drop_left]
      exact List.mem_singleton.2 rfl
  | ignored hd hw hlog =>
    constructor
    · intro ha
      obtain ⟨x, hx, -⟩ := ha.denial hd
      rw [newEvents, hlog, List.drop_length] at hx
      cases hx
    · rintro ⟨-, hnot⟩
      rw [hnot hw] at hd
      cases hd
  | done before e hd hc hrows hbefore he hfits hlog =>
    constructor
    · intro ha
      refine ⟨fun _ => ?_, fun _ => hd⟩
      obtain ⟨x, hx, -, -, -, haction⟩ := ha.effect hrows
      by_contra hlong
      rw [Bool.not_eq_true, ← hfits] at hlong
      rw [newEvents, hlog, logged_of_not_fits hlong, List.drop_left] at hx
      exact hbefore x hx haction
    · rintro ⟨hfit, -⟩
      refine ⟨fun _ => ⟨e, ?_, he⟩, fun hden => ?_⟩
      · rw [newEvents, hlog, logged_of_fits (hfits.trans (hfit (Or.inr hc))), List.append_assoc,
          List.drop_left]
        exact List.mem_append_right _ (List.mem_singleton.2 rfl)
      · rw [hd] at hden
        cases hden

end Outcome

/-! ## Schema requests -/

/-- The state with an event recorded, or refused. -/
def Logged (s : Databases.State) (e : AuditEvent) : Databases.State :=
  { s with tables := { s.tables with audit := logged s.tables.audit e } }

theorem getD_record (s : Databases.State) (e : AuditEvent) : (s.record e).getD s = Logged s e := by
  unfold Databases.State.record Logged logged
  cases record s.tables.audit e <;> rfl

/-- The catalog write of a request that goes through changes the catalog. -/
theorem write_ne {s : Databases.State} {r : SchemaRequest} {svc : Service} (hr : r.Resolved s svc)
    {plan : Plan} (hplan : svc.plan = .ok plan) {cat' : Catalog}
    (hwrite : plan.change.write s.catalog = some cat') : cat' ≠ s.catalog := by
  have hconcat : ∀ {α : Type} (xs : List α) (x : α), xs ++ [x] ≠ xs := by
    intro α xs x heq
    have hlen := congrArg List.length heq
    simp at hlen
  cases hr with
  | createTenantDatabase project =>
    simp only [createTenantDatabase] at hplan
    split at hplan
    · cases hplan
    cases hplan
    obtain rfl := insertDatabase_some hwrite
    exact fun heq => hconcat _ _ (congrArg Catalog.databases heq)
  | createTable organization d hd hid =>
    simp only [createTable] at hplan
    split at hplan
    · cases hplan
    cases hplan
    obtain ⟨-, -, rfl⟩ := insertTable_some hwrite
    exact fun heq => hconcat _ _ (congrArg Catalog.tables heq)
  | addColumn organization t ht hid =>
    simp only [addColumn] at hplan
    split at hplan
    · cases hplan
    cases hplan
    obtain ⟨-, -, rfl⟩ := insertColumn_some hwrite
    exact fun heq => hconcat _ _ (congrArg Catalog.columns heq)
  | addForeignKey organization c t rt rc hc hcid ht htid hrt hrtid hrc hrcid =>
    simp only [addForeignKey] at hplan
    split at hplan
    · cases hplan
    cases hplan
    obtain ⟨-, rfl⟩ := insertForeignKey_some hwrite
    exact fun heq => hconcat _ _ (congrArg Catalog.foreignKeys heq)
  | deleteTable organization t ht hid =>
    cases hplan
    cases hwrite
    intro heq
    have hmem : t ∈ (s.catalog.deleteTable t).tables := by
      rw [heq]
      exact ht
    obtain ⟨-, hkeep⟩ := mem_deleteTables_tables.1 hmem
    simp at hkeep
  | deleteTenantDatabase organization d hd hid =>
    cases hplan
    cases hwrite
    intro heq
    have hmem : d ∈ (s.catalog.deleteDatabase d).databases := by
      rw [heq]
      exact hd
    simp [Catalog.deleteDatabase] at hmem

/-- The events of a resolved request. -/
theorem resolved_events {s : Databases.State} {r : SchemaRequest} {svc : Service}
    (hr : r.Resolved s svc) (actor : Uuid) (requestId : String) :
    svc.action = schemaAction r ∧
      (svc.denied actor requestId).fits = varcharFits 64 requestId := by
  cases hr with
  | createTenantDatabase =>
    exact ⟨rfl, fits_eq (by decide : varcharFits 100 "database.create" = true)
      (by decide : varcharFits 100 "tenant_database" = true)⟩
  | createTable =>
    exact ⟨rfl, fits_eq (by decide : varcharFits 100 "database.table.create" = true)
      (by decide : varcharFits 100 "tenant_database" = true)⟩
  | addColumn =>
    exact ⟨rfl, fits_eq (by decide : varcharFits 100 "database.column.create" = true)
      (by decide : varcharFits 100 "db_table" = true)⟩
  | addForeignKey =>
    exact ⟨rfl, fits_eq (by decide : varcharFits 100 "database.foreign_key.create" = true)
      (by decide : varcharFits 100 "db_column" = true)⟩
  | deleteTable =>
    exact ⟨rfl, fits_eq (by decide : varcharFits 100 "database.table.delete" = true)
      (by decide : varcharFits 100 "db_table" = true)⟩
  | deleteTenantDatabase =>
    exact ⟨rfl, fits_eq (by decide : varcharFits 100 "database.drop" = true)
      (by decide : varcharFits 100 "tenant_database" = true)⟩

/-- What a service call that meets no fault leaves. -/
theorem call_outcome {s : Databases.State} (hs : Sound s) {r : SchemaRequest} {svc : Service}
    (hr : r.Resolved s svc) (actor : Uuid) (requestId : String) :
    (hasPermission s.tables s.now actor svc.permission svc.organization none = false ∧
      (svc.call s none actor requestId).1 = Logged s (svc.denied actor requestId)) ∨
    (hasPermission s.tables s.now actor svc.permission svc.organization none = true ∧
      (∀ plan ten', svc.plan = .ok plan → s.tenant.exec plan.change.ddl = some ten' →
        plan.change.write s.catalog = none) ∧
      ∃ nextUuid, (svc.call s none actor requestId).1 = { s with nextUuid }) ∨
    ∃ plan tenant catalog,
      hasPermission s.tables s.now actor svc.permission svc.organization none = true ∧
        svc.plan = .ok plan ∧ s.tenant.exec plan.change.ddl = some tenant ∧
        plan.change.write s.catalog = some catalog ∧
        (svc.call s none actor requestId).1 =
          Logged { s with nextUuid := s.nextUuid + 2, tenant, catalog } (svc.done actor requestId) := by
  unfold Service.call
  split
  · rename_i hperm
    left
    refine ⟨by simpa using hperm, ?_⟩
    rw [← getD_record]
    cases s.record (svc.denied actor requestId) <;> rfl
  rename_i hperm
  have hperm' : hasPermission s.tables s.now actor svc.permission svc.organization none = true := by
    simpa using hperm
  cases hplan : svc.plan with
  | error message => exact Or.inr (Or.inl ⟨hperm', fun _ _ hp => (nomatch hp), s.nextUuid, rfl⟩)
  | ok plan =>
    cases hexec : s.tenant.exec plan.change.ddl with
    | none =>
      refine Or.inr (Or.inl ⟨hperm', fun plan' ten' hp he => ?_, s.nextUuid + 2, ?_⟩)
      · cases hp
        rw [hexec] at he
        cases he
      · simp [applyChange, executeTenantDdl, hexec]
    | some ten' =>
      cases hwrite : plan.change.write s.catalog with
      | none =>
        -- only a creation's catalog write is refused, and it is undone
        rcases hr.undo hs.valid hplan hexec with ⟨-, hundo⟩ | ⟨-, hsome⟩
        · refine Or.inr (Or.inl ⟨hperm', fun plan' _ hp _ => ?_, s.nextUuid + 2, ?_⟩)
          · cases hp
            exact hwrite
          · simp [applyChange, executeTenantDdl, hexec, writeCatalog, hwrite, hundo]
        · rw [hwrite] at hsome
          cases hsome
      | some cat' =>
        refine Or.inr (Or.inr ⟨plan, ten', cat', hperm', rfl, hexec, hwrite, ?_⟩)
        rw [← getD_record]
        simp only [applyChange, executeTenantDdl, hexec, writeCatalog, hwrite]
        simp only [reduceCtorEq, beq_iff_eq, if_false]
        cases Databases.State.record
          { s with nextUuid := s.nextUuid + 2, tenant := ten', catalog := cat' }
          (svc.done actor requestId) <;> rfl

theorem outcome_schema (out : Deployment) {p : Platform} (hs : Sound p.toState) (actor : Uuid)
    (requestId : String) (r : SchemaRequest) : Outcome out p actor requestId (.schema r) := by
  have hserve : (serve out p actor requestId (.schema r)).1 =
      { p with toState := (handle p.toState none actor requestId r).1 } := rfl
  cases hr : r.resolve p.toState actor with
  | error e =>
    refine .quiet ?_ ?_ ?_
    · simp only [Request.denied, hr]
    · simp [Request.changes, SchemaRequest.accepted, hr]
    · rw [hserve, handle, hr]
  | ok svc =>
    have hres := resolve_ok hr
    obtain ⟨haction, hdenied⟩ := resolved_events hres actor requestId
    have hhandle : (handle p.toState none actor requestId r).1 =
        (svc.call p.toState none actor requestId).1 := by rw [handle, hr]
    rw [hhandle] at hserve
    rcases call_outcome hs hres actor requestId with
      ⟨hperm, hcall⟩ | ⟨hperm, hnone, nextUuid, hcall⟩ |
      ⟨plan, ten', cat', hperm, hplan, hexec, hwrite, hcall⟩
    · rw [hcall] at hserve
      refine .denied (svc.denied actor requestId) ?_ rfl ?_ ⟨rfl, rfl, rfl⟩ hdenied ?_
      · simp only [Request.denied, hr, hperm, Bool.not_false]
      · rw [hserve]
        rfl
      · rw [hserve]
        rfl
    · rw [hcall] at hserve
      refine .quiet ?_ ?_ ?_
      · simp only [Request.denied, hr, hperm, Bool.not_true]
      · rw [Request.changes, Option.any_eq_false]
        intro plan hacc
        simp only [SchemaRequest.accepted, hr, hperm] at hacc
        cases hplan : svc.plan with
        | error e => simp [hplan] at hacc
        | ok plan' =>
          cases hexec : p.tenant.exec plan'.change.ddl with
          | none => simp [hplan, hexec] at hacc
          | some ten' =>
            simp only [hplan, hexec, Bool.not_true, Bool.false_eq_true, if_false,
              Option.isSome_some, if_true, Option.some.injEq] at hacc
            rw [← hacc, hnone plan' ten' hplan hexec]
            rfl
      · rw [hserve]
        rfl
    · rw [hcall] at hserve
      refine .done [] (svc.done actor requestId) ?_ ?_ ?_ (by simp) ⟨rfl, rfl, rfl, ?_⟩
        (hres.done_fits actor requestId) ?_
      · simp only [Request.denied, hr, hperm, Bool.not_true]
      · have hacc : r.accepted p.toState actor = some plan := by
          simp [SchemaRequest.accepted, hr, hperm, hplan, hexec]
        simp only [Request.changes, hacc, Option.any_some, hwrite, Option.isSome_some]
      · rw [hserve]
        exact fun heq => write_ne hres hplan hwrite (congrArg Prod.fst heq)
      · exact congrArg some haction
      · rw [hserve, List.append_nil]
        rfl

/-! ## Connected databases -/

/-- The site with an event recorded, or refused. -/
def LoggedSite (s : Site) (e : AuditEvent) : Site := { s with toState := Logged s.toState e }

theorem fst_recordThen (s : Site) (e : AuditEvent) (result : Except ConnectionError Unit) :
    (s.recordThen e result).1 = LoggedSite s e := by
  unfold Site.recordThen Site.record LoggedSite
  rw [← getD_record]
  cases s.toState.record e <;> rfl

theorem requireConnection_cases (s : Site) (actor organization : Uuid) (action : String)
    (resourceId : Option Uuid) (requestId : String) :
    (hasPermission s.tables s.now actor "connection.manage" organization none = true ∧
      requireConnection s actor organization action resourceId requestId = (s, .ok ())) ∨
    (hasPermission s.tables s.now actor "connection.manage" organization none = false ∧
      ∃ e, requireConnection s actor organization action resourceId requestId =
        (LoggedSite s (connectionDenied actor organization action resourceId requestId),
          .error e)) := by
  unfold requireConnection
  split
  · rename_i hperm
    exact Or.inl ⟨hperm, rfl⟩
  · rename_i hperm
    refine Or.inr ⟨by simpa using hperm, ?_⟩
    rw [← fst_recordThen s _ (.error (.permissionDenied "connection.manage required"))]
    unfold Site.recordThen
    cases s.record (connectionDenied actor organization action resourceId requestId) with
    | none => exact ⟨_, rfl⟩
    | some s' => exact ⟨_, rfl⟩

theorem connectionDenied_fits {actor organization : Uuid} {action : String}
    {resourceId : Option Uuid} {requestId : String} (h : varcharFits 100 action = true) :
    (connectionDenied actor organization action resourceId requestId).fits =
      varcharFits 64 requestId :=
  fits_eq h (by decide : varcharFits 100 "connected_database" = true)

theorem connectionCreated_fits (actor organization : Uuid) (c : ConnectedDatabase)
    (requestId : String) :
    (connectionCreated actor organization c requestId).fits = varcharFits 64 requestId :=
  fits_eq (by decide : varcharFits 100 "connection.create" = true)
    (by decide : varcharFits 100 "connected_database" = true)

theorem outcome_createConnection (out : Deployment) (p : Platform) (actor : Uuid)
    (requestId : String) (projectId : Uuid) (spec : ConnectionSpec) :
    Outcome out p actor requestId (.createConnection projectId spec) := by
  cases hproject : getMemberProject p.toState actor projectId with
  | none =>
    refine .quiet ?_ ?_ ?_
    · simp only [Request.denied, hproject, Option.any_none]
    · simp only [Request.changes, hproject, Option.any_none]
    · simp only [serve, hproject]
  | some project =>
    have hserve : (serve out p actor requestId (.createConnection projectId spec)).1 =
        { p with toSite :=
          (createConnectedDatabase out.connector p.toSite actor project spec requestId).1 } := by
      simp only [serve, hproject]
    unfold createConnectedDatabase at hserve
    rcases requireConnection_cases p.toSite actor project.organization "connection.create" none
      requestId with ⟨hperm, hreq⟩ | ⟨hperm, e, hreq⟩
    · rw [hreq] at hserve
      have hd : (Request.createConnection projectId spec).denied p actor = false := by
        simp only [Request.denied, hproject, Option.any_some, hperm, Bool.not_true]
      have hc : (Request.createConnection projectId spec).changes out p actor =
          (!(decide (spec.name = "") || decide (200 < spec.name.length)) &&
            supportedEngine spec.engine && (out.connector.testConnection spec.params).toBool &&
            p.insertable (newConnection out.connector p.toSite actor project spec)) := by
        simp only [Request.changes, hproject, Option.any_some, hperm, Bool.true_and]
      dsimp only at hserve
      split at hserve
      · rename_i hname
        refine .quiet hd ?_ (by rw [hserve])
        have hname' : (decide (spec.name = "") || decide (200 < spec.name.length)) = true := by
          simpa using hname
        rw [hc, hname']
        rfl
      rename_i hname
      have hname' : (decide (spec.name = "") || decide (200 < spec.name.length)) = false := by
        simpa using hname
      split at hserve
      · rename_i hengine
        refine .quiet hd ?_ (by rw [hserve])
        rw [Bool.not_eq_true'] at hengine
        rw [hc, hengine, Bool.and_false]
        rfl
      rename_i hengine
      rw [Bool.not_eq_true', Bool.not_eq_false] at hengine
      cases htest : out.connector.testConnection spec.params with
      | error message =>
        rw [htest] at hserve hc
        dsimp only at hserve
        rw [fst_recordThen] at hserve
        refine .quiet hd ?_ (by rw [hserve]; rfl)
        rw [hc, Except.toBool, Bool.and_false]
        rfl
      | ok _ =>
        rw [htest] at hserve hc
        dsimp only at hserve
        split at hserve
        · rename_i hinsert
          refine .quiet hd ?_ (by rw [hserve])
          rw [Bool.not_eq_true'] at hinsert
          rw [hc, hinsert, Bool.and_false]
        · rename_i hinsert
          rw [Bool.not_eq_true', Bool.not_eq_false] at hinsert
          rw [fst_recordThen] at hserve
          generalize newConnection out.connector p.toSite actor project spec = c at *
          refine .done [] (connectionCreated actor project.organization c requestId) hd ?_ ?_
            (by simp) ⟨rfl, rfl, rfl, rfl⟩ (connectionCreated_fits _ _ c requestId) ?_
          · rw [hc, hname', hengine, hinsert]
            rfl
          · rw [hserve]
            intro heq
            have hrows : p.connectedDatabases ++ [c] = p.connectedDatabases :=
              congrArg (fun rows => rows.2.2.1) heq
            have hlen := congrArg List.length hrows
            simp at hlen
          · rw [hserve, List.append_nil]
            rfl
    · rw [hreq] at hserve
      refine .denied _ ?_ rfl (by rw [hserve]; rfl) ⟨rfl, rfl, rfl⟩
        (connectionDenied_fits (by decide : varcharFits 100 "connection.create" = true))
        (by rw [hserve]; rfl)
      simp only [Request.denied, hproject, Option.any_some, hperm, Bool.not_false]

theorem getMemberConnectedDatabase_mem {s : Site} {user id : Uuid} {c : ConnectedDatabase}
    {organization : Uuid} (h : getMemberConnectedDatabase s user id = some (c, organization)) :
    c ∈ s.connectedDatabases := by
  simp only [getMemberConnectedDatabase, Option.bind_eq_bind, Option.bind_eq_some_iff] at h
  obtain ⟨c', hc', organization', -, h⟩ := h
  split at h
  · cases h
    exact List.mem_of_find?_eq_some hc'
  · cases h

theorem connectionTested_fits (actor organization : Uuid) (c : ConnectedDatabase)
    (requestId : String) :
    (connectionTested actor organization c requestId).fits = varcharFits 64 requestId :=
  fits_eq (by decide : varcharFits 100 "connection.test" = true)
    (by decide : varcharFits 100 "connected_database" = true)

theorem connectionDeleted_fits (actor organization : Uuid) (c : ConnectedDatabase)
    (requestId : String) :
    (connectionDeleted actor organization c requestId).fits = varcharFits 64 requestId :=
  fits_eq (by decide : varcharFits 100 "connection.delete" = true)
    (by decide : varcharFits 100 "connected_database" = true)

theorem outcome_testConnection (out : Deployment) (p : Platform) (actor : Uuid)
    (requestId : String) (id : Uuid) : Outcome out p actor requestId (.testConnection id) := by
  cases hfound : getMemberConnectedDatabase p.toSite actor id with
  | none =>
    refine .quiet ?_ ?_ ?_
    · simp only [Request.denied, hfound, Option.any_none]
    · simp only [Request.changes, hfound, Option.any_none]
    · simp only [serve, hfound]
  | some found =>
    obtain ⟨c, organization⟩ := found
    have hserve : (serve out p actor requestId (.testConnection id)).1 =
        { p with toSite :=
          (testConnectedDatabase out.connector p.toSite actor organization c requestId).1 } := by
      simp only [serve, hfound]
    unfold testConnectedDatabase at hserve
    rcases requireConnection_cases p.toSite actor organization "connection.test" (some c.id)
      requestId with ⟨hperm, hreq⟩ | ⟨hperm, e, hreq⟩
    · rw [hreq] at hserve
      have hd : (Request.testConnection id).denied p actor = false := by
        simp only [Request.denied, hfound, Option.any_some, hperm, Bool.not_true]
      have hc : (Request.testConnection id).changes out p actor = p.testChanges out c := by
        simp only [Request.changes, hfound, Option.any_some, hperm, Bool.true_and]
      unfold Platform.testChanges at hc
      dsimp only at hserve
      split at hserve
      · rename_i hengine
        refine .quiet hd ?_ (by rw [hserve])
        rw [Bool.not_eq_true'] at hengine
        rw [hc, hengine, Bool.false_and]
      rename_i hengine
      rw [Bool.not_eq_true', Bool.not_eq_false] at hengine
      cases hpassword : out.connector.decryptCredential c.encryptedPassword with
      | none =>
        rw [hpassword] at hserve hc
        refine .quiet hd ?_ (by rw [hserve])
        rw [hc, Option.any_none, Bool.and_false]
      | some password =>
        rw [hpassword, hengine, Option.any_some, Bool.true_and] at hc
        rw [hpassword] at hserve
        dsimp only at hserve hc
        have hid : (c.tested p.now (out.connector.testConnection (c.params password))).id = c.id := by
          cases out.connector.testConnection (c.params password) <;> rfl
        generalize c.tested p.now (out.connector.testConnection (c.params password)) = c' at *
        split at hserve
        · rename_i hfit
          refine .quiet hd ?_ (by rw [hserve])
          rw [Bool.not_eq_true'] at hfit
          rw [hc, hfit, Bool.false_and]
        · rename_i hfit
          rw [Bool.not_eq_true', Bool.not_eq_false] at hfit
          rw [hfit, Bool.true_and, ← hid] at hc
          rw [fst_recordThen] at hserve
          have hany : (p.saveConnection c').connectedDatabases ≠ p.connectedDatabases ↔
              (p.connectedDatabases.any fun x => x.id == c'.id && x != c') = true := by
            unfold Site.saveConnection
            rw [map_update_ne_iff, List.any_eq_true]
            simp only [Bool.and_eq_true, beq_iff_eq, bne_iff_ne, ne_comm (a := c')]
          by_cases hchanged : (p.saveConnection c').connectedDatabases = p.connectedDatabases
          · refine .quiet hd ?_ ?_
            · rw [hc, ← Bool.not_eq_true, ← hany, not_not]
              exact hchanged
            · rw [hserve]
              show (_, _, (p.saveConnection c').connectedDatabases, _, _, _) = p.rows
              rw [hchanged]
              rfl
          · refine .done [] (connectionTested actor organization c' requestId) hd ?_ ?_ (by simp)
              ⟨rfl, rfl, rfl, rfl⟩ (connectionTested_fits _ _ c' requestId) ?_
            · rw [hc, ← hany]
              exact hchanged
            · rw [hserve]
              exact fun heq => hchanged (congrArg (fun rows => rows.2.2.1) heq)
            · rw [hserve, List.append_nil]
              rfl
    · rw [hreq] at hserve
      refine .denied _ ?_ rfl (by rw [hserve]; rfl) ⟨rfl, rfl, rfl⟩
        (connectionDenied_fits (by decide : varcharFits 100 "connection.test" = true))
        (by rw [hserve]; rfl)
      simp only [Request.denied, hfound, Option.any_some, hperm, Bool.not_false]

theorem outcome_deleteConnection (out : Deployment) (p : Platform) (actor : Uuid)
    (requestId : String) (id : Uuid) : Outcome out p actor requestId (.deleteConnection id) := by
  cases hfound : getMemberConnectedDatabase p.toSite actor id with
  | none =>
    refine .quiet ?_ ?_ ?_
    · simp only [Request.denied, hfound, Option.any_none]
    · simp only [Request.changes, hfound, Option.any_none]
    · simp only [serve, hfound]
  | some found =>
    obtain ⟨c, organization⟩ := found
    have hserve : (serve out p actor requestId (.deleteConnection id)).1 =
        { p with toSite :=
          (deleteConnectedDatabase p.toSite actor organization c requestId).1 } := by
      simp only [serve, hfound]
    unfold deleteConnectedDatabase at hserve
    rcases requireConnection_cases p.toSite actor organization "connection.delete" (some c.id)
      requestId with ⟨hperm, hreq⟩ | ⟨hperm, e, hreq⟩
    · rw [hreq] at hserve
      dsimp only at hserve
      rw [fst_recordThen] at hserve
      refine .done [] (connectionDeleted actor organization c requestId) ?_ ?_ ?_ (by simp)
        ⟨rfl, rfl, rfl, rfl⟩ (connectionDeleted_fits _ _ c requestId) ?_
      · simp only [Request.denied, hfound, Option.any_some, hperm, Bool.not_true]
      · simp only [Request.changes, hfound, Option.any_some, hperm]
      · rw [hserve]
        intro heq
        have hrows : p.connectedDatabases.filter (fun x => x.id != c.id) = p.connectedDatabases :=
          congrArg (fun rows => rows.2.2.1) heq
        have hmem := getMemberConnectedDatabase_mem hfound
        rw [← hrows, List.mem_filter] at hmem
        simp at hmem
      · rw [hserve, List.append_nil]
        rfl
    · rw [hreq] at hserve
      refine .denied _ ?_ rfl (by rw [hserve]; rfl) ⟨rfl, rfl, rfl⟩
        (connectionDenied_fits (by decide : varcharFits 100 "connection.delete" = true))
        (by rw [hserve]; rfl)
      simp only [Request.denied, hfound, Option.any_some, hperm, Bool.not_false]

/-! ## Shares -/

/-- The sharing state with an event recorded, or refused. -/
def LoggedShares (s : Sharing.State) (e : AuditEvent) : Sharing.State :=
  { s with tables := { s.tables with audit := logged s.tables.audit e } }

theorem recordShares_cases (s : Sharing.State) (e : AuditEvent) :
    (s.record e = none ∧ LoggedShares s e = s) ∨ s.record e = some (LoggedShares s e) := by
  unfold Sharing.State.record LoggedShares logged
  cases record s.tables.audit e with
  | none => exact Or.inl ⟨rfl, rfl⟩
  | some audit => exact Or.inr rfl

/-- The event `_require` records before it raises. -/
def shareDenied (actor organization : Uuid) (action : String) (resourceId : Option Uuid)
    (requestId : String) : AuditEvent :=
  { actor := some actor, organization := some organization, action := action,
    resourceType := "share_grant", resourceId := resourceId, requestId := requestId,
    result := .denied }

theorem shareDenied_fits {actor organization : Uuid} {action : String} {resourceId : Option Uuid}
    {requestId : String} (h : varcharFits 100 action = true) :
    (shareDenied actor organization action resourceId requestId).fits = varcharFits 64 requestId :=
  fits_eq h (by decide : varcharFits 100 "share_grant" = true)

theorem requirePermission_outcome (s : Sharing.State) (actor organization : Uuid)
    (action : String) (resourceId : Option Uuid) (requestId : String) :
    (hasPermission s.tables s.now actor "sharing.manage" organization none = true ∧
      requirePermission s actor "sharing.manage" organization action resourceId requestId =
        (s, .ok ())) ∨
    (hasPermission s.tables s.now actor "sharing.manage" organization none = false ∧
      ∃ e, requirePermission s actor "sharing.manage" organization action resourceId requestId =
        (LoggedShares s (shareDenied actor organization action resourceId requestId),
          .error e)) := by
  unfold requirePermission
  split
  · rename_i hperm
    exact Or.inl ⟨hperm, rfl⟩
  · rename_i hperm
    refine Or.inr ⟨by simpa using hperm, ?_⟩
    rcases recordShares_cases s (shareDenied actor organization action resourceId requestId) with
      ⟨hrec, hsame⟩ | hrec
    · unfold shareDenied at hrec hsame ⊢
      rw [hrec, hsame]
      exact ⟨_, rfl⟩
    · unfold shareDenied at hrec ⊢
      rw [hrec]
      exact ⟨_, rfl⟩

/-- The fan-out records its grants under their own action. -/
theorem grantAll_audit {t t' : Tables} {gs : List ResourceGrant} (h : grantAll t gs = .ok t') :
    ∃ before, t'.audit = t.audit ++ before ∧
      ∀ e ∈ before, e.action = "permissions.resource_grant.create" := by
  induction gs generalizing t with
  | nil =>
    cases h
    exact ⟨[], (List.append_nil _).symm, by simp⟩
  | cons g gs ih =>
    unfold grantAll at h
    split at h
    · rename_i t1 h1
      obtain ⟨before, haudit, hbefore⟩ := ih h
      unfold grantResourcePermission at h1
      split at h1
      · cases h1
      split at h1
      · cases h1
      split at h1
      · cases h1
      split at h1
      · cases h1
      rename_i audit hrec
      cases h1
      obtain ⟨-, rfl⟩ := record_eq_some.1 hrec
      refine ⟨_ :: before, by rw [haudit, List.append_assoc]; rfl, fun e he => ?_⟩
      rcases List.mem_cons.1 he with rfl | he
      · rfl
      · exact hbefore e he
    · exact ih h
    · cases h
    · cases h

/-- The event recorded once a share is there. -/
def shareCreated (r : ShareRequest) (id : Uuid) : AuditEvent :=
  { actor := some r.actor, organization := some r.organization, action := "sharing.create",
    resourceType := "share_grant", resourceId := some id, requestId := r.requestId,
    context := [("resource_type", .str r.resourceType), ("resource_id", .uuid r.resourceId),
      ("principal_type", .str r.principalType.value), ("level", .str r.level.value)] }

theorem shareCreated_fits (r : ShareRequest) (id : Uuid) :
    (shareCreated r id).fits = varcharFits 64 r.requestId :=
  fits_eq (by decide : varcharFits 100 "sharing.create" = true)
    (by decide : varcharFits 100 "share_grant" = true)

/-- What `create_share_grant` leaves. -/
theorem createShareGrant_outcome (s : Sharing.State) (r : ShareRequest) :
    (hasPermission s.tables s.now r.actor "sharing.manage" r.organization none = false ∧
      (createShareGrant s r).1 = LoggedShares s (shareDenied r.actor r.organization "sharing.create"
        (some r.resourceId) r.requestId)) ∨
    (hasPermission s.tables s.now r.actor "sharing.manage" r.organization none = true ∧
      ((validateShare s r).toBool && (grantAll s.tables (r.fanOut s.nextUuid
        (levelCodes r.resourceType r.level) (targetUsers s r))).toBool) = false ∧
      (createShareGrant s r).1 = s) ∨
    ∃ tables, hasPermission s.tables s.now r.actor "sharing.manage" r.organization none = true ∧
      (validateShare s r).toBool = true ∧
      grantAll s.tables (r.fanOut s.nextUuid (levelCodes r.resourceType r.level)
        (targetUsers s r)) = .ok tables ∧
      (createShareGrant s r).1 =
        LoggedShares (s.withShare (r.shareGrant s.nextUuid (targetUsers s r)) tables)
          (shareCreated r s.nextUuid) := by
  unfold createShareGrant
  rcases requirePermission_outcome s r.actor r.organization "sharing.create" (some r.resourceId)
    r.requestId with ⟨hperm, hreq⟩ | ⟨hperm, e, hreq⟩
  · right
    rw [hreq]
    dsimp only
    cases hvalid : validateShare s r with
    | error e => exact Or.inl ⟨hperm, rfl, rfl⟩
    | ok codes =>
      have hid : (r.shareGrant s.nextUuid (targetUsers s r)).id = s.nextUuid := rfl
      rw [validateShare_codes hvalid]
      dsimp only
      rw [hid]
      cases hgrants : grantAll s.tables (r.fanOut s.nextUuid codes (targetUsers s r)) with
      | error e => exact Or.inl ⟨hperm, rfl, rfl⟩
      | ok tables =>
        refine Or.inr ⟨tables, hperm, rfl, rfl, ?_⟩
        rcases recordShares_cases
          (s.withShare (r.shareGrant s.nextUuid (targetUsers s r)) tables)
          (shareCreated r s.nextUuid) with ⟨hrec, hsame⟩ | hrec
        · unfold shareCreated at hrec hsame ⊢
          dsimp only
          rw [hrec, hsame]
        · unfold shareCreated at hrec ⊢
          dsimp only
          rw [hrec]
  · left
    rw [hreq]
    exact ⟨hperm, rfl⟩

theorem outcome_createShare (out : Deployment) (p : Platform) (actor : Uuid) (requestId : String)
    (r : ShareRequest) : Outcome out p actor requestId (.createShare r) := by
  have hserve : (serve out p actor requestId (.createShare r)).1 =
      p.withSharing (postShareGrant p.sharing { r with actor, requestId }).1 := rfl
  unfold postShareGrant at hserve
  have hlookups : p.canShare actor r = (isMember p.memberships actor r.organization &&
      !r.user.any (fun u => !p.users.contains u) &&
        !r.team.any fun t => !p.sharing.memberTeam actor t r.organization) := rfl
  have hquiet : p.canShare actor r = false → (serve out p actor requestId (.createShare r)).1 = p →
      Outcome out p actor requestId (.createShare r) := by
    intro hcan hsame
    refine .quiet ?_ ?_ (by rw [hsame])
    · rw [Request.denied, hcan, Bool.false_and]
    · simp only [Request.changes]
      rw [show p.canShare actor { r with actor } = p.canShare actor r from rfl, hcan,
        Bool.false_and, Bool.false_and, Bool.false_and]
  split at hserve
  · rename_i hmember
    refine hquiet ?_ hserve
    have hmember' : isMember p.memberships actor r.organization = false := by
      simpa [Platform.sharing] using hmember
    rw [hlookups, hmember', Bool.false_and, Bool.false_and]
  rename_i hmember
  split at hserve
  · rename_i huser
    refine hquiet ?_ hserve
    have huser' : r.user.any (fun u => !p.users.contains u) = true := huser
    rw [hlookups, huser', Bool.not_true, Bool.and_false, Bool.false_and]
  rename_i huser
  split at hserve
  · rename_i hteam
    refine hquiet ?_ hserve
    have hteam' : r.team.any (fun t => !p.sharing.memberTeam actor t r.organization) = true := hteam
    rw [hlookups, hteam', Bool.not_true, Bool.and_false]
  rename_i hteam
  have hcan : p.canShare actor r = true := by
    have hmember' : isMember p.memberships actor r.organization = true := by
      simpa [Platform.sharing] using hmember
    have huser' : r.user.any (fun u => !p.users.contains u) = false :=
      Bool.eq_false_iff.2 huser
    have hteam' : r.team.any (fun t => !p.sharing.memberTeam actor t r.organization) = false :=
      Bool.eq_false_iff.2 hteam
    rw [hlookups, hmember', huser', hteam']
    rfl
  have hchanges : (Request.createShare r).changes out p actor =
      (hasPermission p.tables p.now actor "sharing.manage" r.organization none &&
        (validateShare p.sharing { r with actor, requestId }).toBool &&
        (grantAll p.tables (({ r with actor, requestId } : ShareRequest).fanOut p.nextUuid
          (levelCodes r.resourceType r.level)
          (targetUsers p.sharing { r with actor, requestId }))).toBool) := by
    simp only [Request.changes]
    rw [show p.canShare actor { r with actor } = p.canShare actor r from rfl, hcan, Bool.true_and]
    rfl
  rcases createShareGrant_outcome p.sharing { r with actor, requestId } with
    ⟨hperm, hcall⟩ | ⟨hperm, hnone, hcall⟩ | ⟨tables, hperm, hvalid, hgrants, hcall⟩
  · rw [hcall] at hserve
    refine .denied _ ?_ rfl (by rw [hserve]; rfl) ⟨rfl, rfl, rfl⟩
      (shareDenied_fits (by decide : varcharFits 100 "sharing.create" = true))
      (by rw [hserve]; rfl)
    rw [Request.denied, hcan, Bool.true_and]
    exact congrArg Bool.not hperm
  · rw [hcall] at hserve
    refine .quiet ?_ ?_ (by rw [hserve]; rfl)
    · rw [Request.denied, hcan, Bool.true_and]
      exact congrArg Bool.not hperm
    · rw [hchanges, Bool.and_assoc]
      rw [show (hasPermission p.tables p.now actor "sharing.manage" r.organization none) = true
        from hperm, Bool.true_and]
      exact hnone
  · rw [hcall] at hserve
    obtain ⟨before, haudit, hbefore⟩ := grantAll_audit hgrants
    refine .done before (shareCreated { r with actor, requestId } p.nextUuid) ?_ ?_ ?_
      (fun e he => ?_) ⟨rfl, rfl, rfl, rfl⟩ (shareCreated_fits _ _) ?_
    · rw [Request.denied, hcan, Bool.true_and]
      exact congrArg Bool.not hperm
    · rw [hchanges]
      rw [show (hasPermission p.tables p.now actor "sharing.manage" r.organization none) = true
        from hperm, hvalid, Bool.true_and, Bool.true_and]
      exact congrArg Except.toBool hgrants
    · rw [hserve]
      intro heq
      have hrows : p.shareGrants ++ [_] = p.shareGrants :=
        congrArg (fun rows => rows.2.2.2.2.1) heq
      have hlen := congrArg List.length hrows
      simp at hlen
    · rw [hbefore e he]
      show some "permissions.resource_grant.create" ≠ some "sharing.create"
      decide
    · rw [hserve]
      show logged tables.audit _ = _
      rw [haudit]
      rfl

/-- The event recorded once a share is revoked. -/
def shareRevoked (actor : Uuid) (share : ShareGrant) (requestId : String) : AuditEvent :=
  { actor := some actor, organization := some share.organization, action := "sharing.revoke",
    resourceType := "share_grant", resourceId := some share.id, requestId := requestId }

theorem shareRevoked_fits (actor : Uuid) (share : ShareGrant) (requestId : String) :
    (shareRevoked actor share requestId).fits = varcharFits 64 requestId :=
  fits_eq (by decide : varcharFits 100 "sharing.revoke" = true)
    (by decide : varcharFits 100 "share_grant" = true)

/-- What `revoke_share_grant` leaves. -/
theorem revokeShareGrant_outcome (s : Sharing.State) (actor : Uuid) (share : ShareGrant)
    (requestId : String) :
    (hasPermission s.tables s.now actor "sharing.manage" share.organization none = false ∧
      (revokeShareGrant s actor share requestId).1 = LoggedShares s (shareDenied actor
        share.organization "sharing.revoke" (some share.resourceId) requestId)) ∨
    (hasPermission s.tables s.now actor "sharing.manage" share.organization none = true ∧
      (revokeShareGrant s actor share requestId).1 =
        LoggedShares (s.withoutShare share) (shareRevoked actor share requestId)) := by
  unfold revokeShareGrant
  rcases requirePermission_outcome s actor share.organization "sharing.revoke"
    (some share.resourceId) requestId with ⟨hperm, hreq⟩ | ⟨hperm, e, hreq⟩
  · right
    refine ⟨hperm, ?_⟩
    rw [hreq]
    rcases recordShares_cases (s.withoutShare share) (shareRevoked actor share requestId) with
      ⟨hrec, hsame⟩ | hrec
    · unfold shareRevoked at hrec hsame ⊢
      dsimp only
      rw [hrec, hsame]
    · unfold shareRevoked at hrec ⊢
      dsimp only
      rw [hrec]
  · left
    rw [hreq]
    exact ⟨hperm, rfl⟩

/-- Revoking changes a row exactly where the share was not revoked just now or a grant goes. -/
theorem withoutShare_ne_iff (s : Sharing.State) (share : ShareGrant) :
    ((s.withoutShare share).shareGrants ≠ s.shareGrants ∨
      (s.withoutShare share).tables.resourceGrants ≠ s.tables.resourceGrants) ↔
    (s.shareGrants.any (fun sh => sh.id == share.id && sh.revokedAt != some s.now) ||
      s.tables.resourceGrants.any (share.deletes s.memberships)) = true := by
  have hshares : (s.withoutShare share).shareGrants ≠ s.shareGrants ↔
      s.shareGrants.any (fun sh => sh.id == share.id && sh.revokedAt != some s.now) = true := by
    unfold Sharing.State.withoutShare
    rw [map_update_ne_iff, List.any_eq_true]
    have hrow : ∀ sh : ShareGrant,
        { sh with revokedAt := some s.now } ≠ sh ↔ sh.revokedAt ≠ some s.now := by
      intro sh
      constructor
      · intro hne heq
        apply hne
        rw [← heq]
      · intro hne heq
        exact hne (congrArg ShareGrant.revokedAt heq).symm
    simp only [Bool.and_eq_true, beq_iff_eq, bne_iff_ne, hrow]
  have hgrants : (s.withoutShare share).tables.resourceGrants ≠ s.tables.resourceGrants ↔
      s.tables.resourceGrants.any (share.deletes s.memberships) = true := by
    unfold Sharing.State.withoutShare
    rw [ne_eq, List.filter_eq_self, List.any_eq_true]
    simp
  rw [hshares, hgrants, Bool.or_eq_true]

theorem outcome_revokeShare (out : Deployment) (p : Platform) (actor : Uuid) (requestId : String)
    (shareId : Uuid) : Outcome out p actor requestId (.revokeShare shareId) := by
  cases hfound : getMemberShare p.sharing actor shareId with
  | none =>
    refine .quiet ?_ ?_ ?_
    · simp only [Request.denied, hfound, Option.any_none]
    · simp only [Request.changes, hfound, Option.any_none]
    · simp only [serve, deleteShareGrant, hfound]
      rfl
  | some share =>
    have hserve : (serve out p actor requestId (.revokeShare shareId)).1 =
        p.withSharing (revokeShareGrant p.sharing actor share requestId).1 := by
      simp only [serve, deleteShareGrant, hfound]
    rcases revokeShareGrant_outcome p.sharing actor share requestId with
      ⟨hperm, hcall⟩ | ⟨hperm, hcall⟩
    · rw [hcall] at hserve
      refine .denied _ ?_ rfl (by rw [hserve]; rfl) ⟨rfl, rfl, rfl⟩
        (shareDenied_fits (by decide : varcharFits 100 "sharing.revoke" = true))
        (by rw [hserve]; rfl)
      simp only [Request.denied, hfound, Option.any_some]
      exact congrArg Bool.not hperm
    · rw [hcall] at hserve
      have hd : (Request.revokeShare shareId).denied p actor = false := by
        simp only [Request.denied, hfound, Option.any_some]
        exact congrArg Bool.not hperm
      have hc : (Request.revokeShare shareId).changes out p actor =
          (p.shareGrants.any (fun sh => sh.id == share.id && sh.revokedAt != some p.now) ||
            p.tables.resourceGrants.any (share.deletes p.memberships)) := by
        simp only [Request.changes, hfound, Option.any_some]
        rw [show (hasPermission p.tables p.now actor "sharing.manage" share.organization none) =
          true from hperm, Bool.true_and]
      have hne := withoutShare_ne_iff p.sharing share
      by_cases hsame : (p.sharing.withoutShare share).shareGrants = p.shareGrants ∧
        (p.sharing.withoutShare share).tables.resourceGrants = p.tables.resourceGrants
      · refine .quiet hd ?_ ?_
        · rw [hc, ← Bool.not_eq_true]
          refine fun hany => absurd (hne.2 hany) ?_
          rw [not_or, not_not, not_not]
          exact hsame
        · rw [hserve]
          show (_, _, _, _, (p.sharing.withoutShare share).shareGrants,
            (p.sharing.withoutShare share).tables.resourceGrants) = p.rows
          rw [hsame.1, hsame.2]
          rfl
      · refine .done [] (shareRevoked actor share requestId) hd ?_ ?_ (by simp)
          ⟨rfl, rfl, rfl, rfl⟩ (shareRevoked_fits _ _ _) ?_
        · rw [hc]
          refine hne.1 ?_
          by_contra hboth
          rw [not_or, not_not, not_not] at hboth
          exact hsame hboth
        · rw [hserve]
          intro heq
          exact hsame ⟨congrArg (fun rows => rows.2.2.2.2.1) heq,
            congrArg (fun rows => rows.2.2.2.2.2) heq⟩
        · rw [hserve, List.append_nil]
          rfl

/-! ## The organization's switch and the rows of tables -/

/-- The event recorded once the switch is set. -/
def switchRecorded (actor organization : Uuid) (enabled : Bool) (requestId : String) :
    AuditEvent :=
  { actor := some actor, organization := some organization,
    action := if enabled then "sharing.external.enable" else "sharing.external.disable",
    resourceType := "organization", resourceId := some organization, requestId := requestId }

theorem switchRecorded_fits (actor organization : Uuid) (enabled : Bool) (requestId : String) :
    (switchRecorded actor organization enabled requestId).fits = varcharFits 64 requestId := by
  refine fits_eq ?_ (by decide : varcharFits 100 "organization" = true)
  cases enabled with
  | false => exact (by decide : varcharFits 100 "sharing.external.disable" = true)
  | true => exact (by decide : varcharFits 100 "sharing.external.enable" = true)

/-- The platform with the switch of one organization set. -/
def Platform.switched (p : Platform) (organization : Uuid) (enabled : Bool) : Platform :=
  { p with organizations := p.organizations.map fun o =>
      if o.id = organization then { o with externalSharingEnabled := enabled } else o }

theorem switched_ne_iff (p : Platform) (organization : Uuid) (enabled : Bool) :
    (p.switched organization enabled).organizations ≠ p.organizations ↔
      (p.organizations.any fun o =>
        o.id == organization && o.externalSharingEnabled != enabled) = true := by
  unfold Platform.switched
  rw [map_update_ne_iff, List.any_eq_true]
  have hrow : ∀ o : Organization,
      { o with externalSharingEnabled := enabled } ≠ o ↔ o.externalSharingEnabled ≠ enabled := by
    intro o
    constructor
    · intro hne heq
      apply hne
      rw [← heq]
    · intro hne heq
      exact hne (congrArg Organization.externalSharingEnabled heq).symm
  simp only [Bool.and_eq_true, beq_iff_eq, bne_iff_ne, hrow]

/-- What `set_external_sharing_enabled` leaves. -/
theorem setExternalSharingEnabled_outcome (feature : Bool) (p : Platform)
    (actor organization : Uuid) (enabled : Bool) (requestId : String) :
    (hasPermission p.tables p.now actor "sharing.manage" organization none = false ∧
      (setExternalSharingEnabled feature p actor organization enabled requestId).1 =
        p.withSharing (LoggedShares p.sharing (shareDenied actor organization
          "sharing.external.toggle" none requestId))) ∨
    (hasPermission p.tables p.now actor "sharing.manage" organization none = true ∧
      (feature || !enabled) = false ∧
      (setExternalSharingEnabled feature p actor organization enabled requestId).1 = p) ∨
    (hasPermission p.tables p.now actor "sharing.manage" organization none = true ∧
      (feature || !enabled) = true ∧
      (setExternalSharingEnabled feature p actor organization enabled requestId).1 =
        (p.switched organization enabled).withSharing
          (LoggedShares (p.switched organization enabled).sharing
            (switchRecorded actor organization enabled requestId))) := by
  unfold setExternalSharingEnabled
  rcases requirePermission_outcome p.sharing actor organization "sharing.external.toggle" none
    requestId with ⟨hperm, hreq⟩ | ⟨hperm, e, hreq⟩
  · right
    rw [hreq]
    dsimp only
    by_cases hfeature : (enabled && !feature) = true
    · left
      rw [if_pos hfeature]
      refine ⟨hperm, ?_, rfl⟩
      rw [Bool.and_eq_true, Bool.not_eq_true'] at hfeature
      rw [hfeature.1, hfeature.2]
      rfl
    · right
      rw [if_neg hfeature]
      refine ⟨hperm, ?_, ?_⟩
      · cases feature <;> cases enabled <;> simp_all
      · rcases recordShares_cases (p.switched organization enabled).sharing
          (switchRecorded actor organization enabled requestId) with ⟨hrec, hsame⟩ | hrec
        · have hrec' : ((p.withSharing p.sharing).switched organization enabled).sharing.record
              (switchRecorded actor organization enabled requestId) = none := hrec
          unfold Platform.switched switchRecorded at hrec'
          rw [hrec', hsame]
          rfl
        · have hrec' : ((p.withSharing p.sharing).switched organization enabled).sharing.record
              (switchRecorded actor organization enabled requestId) = some _ := hrec
          unfold Platform.switched switchRecorded at hrec'
          rw [hrec']
          rfl
  · left
    rw [hreq]
    exact ⟨hperm, rfl⟩

theorem outcome_setExternalSharing (out : Deployment) (p : Platform) (actor : Uuid)
    (requestId : String) (organization : Uuid) (enabled : Bool) :
    Outcome out p actor requestId (.setExternalSharing organization enabled) := by
  cases hmember : isMember p.memberships actor organization with
  | false =>
    refine .quiet ?_ ?_ ?_
    · simp only [Request.denied, hmember, Bool.false_and]
    · simp only [Request.changes, hmember, Bool.false_and]
    · simp only [serve, hmember, Bool.not_false, if_true]
  | true =>
    have hserve : (serve out p actor requestId (.setExternalSharing organization enabled)).1 =
        (setExternalSharingEnabled out.externalSharing p actor organization enabled
          requestId).1 := by
      simp [serve, hmember]
    rcases setExternalSharingEnabled_outcome out.externalSharing p actor organization enabled
      requestId with ⟨hperm, hcall⟩ | ⟨hperm, hfeature, hcall⟩ | ⟨hperm, hfeature, hcall⟩
    · rw [hcall] at hserve
      refine .denied _ ?_ rfl (by rw [hserve]; rfl) ⟨rfl, rfl, rfl⟩
        (shareDenied_fits (by decide : varcharFits 100 "sharing.external.toggle" = true))
        (by rw [hserve]; rfl)
      simp only [Request.denied, hmember, hperm, Bool.not_false, Bool.true_and]
    · rw [hcall] at hserve
      refine .quiet ?_ ?_ (by rw [hserve])
      · simp only [Request.denied, hmember, hperm, Bool.not_true, Bool.true_and]
      · simp only [Request.changes, hfeature, Bool.and_false, Bool.false_and]
    · rw [hcall] at hserve
      have hd : (Request.setExternalSharing organization enabled).denied p actor = false := by
        simp only [Request.denied, hmember, hperm, Bool.not_true, Bool.true_and]
      have hc : (Request.setExternalSharing organization enabled).changes out p actor =
          p.organizations.any fun o =>
            o.id == organization && o.externalSharingEnabled != enabled := by
        simp only [Request.changes, hmember, hperm, hfeature, Bool.true_and]
      have hne := switched_ne_iff p organization enabled
      by_cases hsame : (p.switched organization enabled).organizations = p.organizations
      · refine .quiet hd ?_ ?_
        · rw [hc, ← Bool.not_eq_true, ← hne, not_not]
          exact hsame
        · rw [hserve]
          show (_, _, _, (p.switched organization enabled).organizations, _, _) = p.rows
          rw [hsame]
          rfl
      · refine .done [] (switchRecorded actor organization enabled requestId) hd ?_ ?_ (by simp)
          ⟨rfl, rfl, rfl, rfl⟩ (switchRecorded_fits _ _ _ _) ?_
        · rw [hc, ← hne]
          exact hsame
        · rw [hserve]
          exact fun heq => hsame (congrArg (fun rows => rows.2.2.2.1) heq)
        · rw [hserve, List.append_nil]
          rfl

theorem outcome_writeRow (out : Deployment) (p : Platform) (actor : Uuid) (requestId : String)
    (tableId : Uuid) : Outcome out p actor requestId (.writeRow tableId) := by
  have hsame : (serve out p actor requestId (.writeRow tableId)).1 = p := by
    unfold serve
    dsimp only
    split
    · rfl
    · split <;> rfl
  cases hd : (Request.writeRow tableId).denied p actor with
  | false => exact .quiet hd rfl (by rw [hsame])
  | true => exact .ignored hd rfl (by rw [hsame])

/-- Every request ends in one of the four ways. -/
theorem outcome (out : Deployment) {p : Platform} (hs : Sound p.toState) (actor : Uuid)
    (requestId : String) (req : Request) : Outcome out p actor requestId req := by
  cases req with
  | schema r => exact outcome_schema out hs actor requestId r
  | createConnection projectId spec =>
    exact outcome_createConnection out p actor requestId projectId spec
  | testConnection id => exact outcome_testConnection out p actor requestId id
  | deleteConnection id => exact outcome_deleteConnection out p actor requestId id
  | createShare r => exact outcome_createShare out p actor requestId r
  | revokeShare shareId => exact outcome_revokeShare out p actor requestId shareId
  | setExternalSharing organization enabled =>
    exact outcome_setExternalSharing out p actor requestId organization enabled
  | writeRow tableId => exact outcome_writeRow out p actor requestId tableId

/-! ## Every state of a run -/

/-- The catalog, the tenant schema and the used ids are kept. -/
structure Kept (s s' : Databases.State) : Prop where
  catalog : s'.catalog = s.catalog
  tenant : s'.tenant = s.tenant
  nextUuid : s.nextUuid ≤ s'.nextUuid

theorem Kept.refl (s : Databases.State) : Kept s s := ⟨rfl, rfl, Nat.le_refl _⟩

theorem Kept.sound {s s' : Databases.State} (h : Kept s s') (hs : Sound s) : Sound s' :=
  ⟨h.catalog ▸ hs.wellFormed.mono h.nextUuid, h.tenant ▸ hs.valid⟩

theorem kept_recordThen (s : Site) (e : AuditEvent) (result : Except ConnectionError Unit) :
    Kept s.toState (s.recordThen e result).1.toState := by
  rw [fst_recordThen]
  exact ⟨rfl, rfl, Nat.le_refl _⟩

theorem kept_createConnectedDatabase (out : Connector) (s : Site) (actor : Uuid)
    (project : Project) (spec : ConnectionSpec) (requestId : String) :
    Kept s.toState (createConnectedDatabase out s actor project spec requestId).1.toState := by
  unfold createConnectedDatabase
  rcases requireConnection_cases s actor project.organization "connection.create" none requestId
    with ⟨-, hreq⟩ | ⟨-, e, hreq⟩
  · rw [hreq]
    dsimp only
    split
    · exact Kept.refl _
    split
    · exact Kept.refl _
    split
    · exact kept_recordThen _ _ _
    split
    · exact Kept.refl _
    rw [fst_recordThen]
    exact ⟨rfl, rfl, Nat.le_succ _⟩
  · rw [hreq]
    exact ⟨rfl, rfl, Nat.le_refl _⟩

theorem kept_testConnectedDatabase (out : Connector) (s : Site) (actor organization : Uuid)
    (c : ConnectedDatabase) (requestId : String) :
    Kept s.toState (testConnectedDatabase out s actor organization c requestId).1.toState := by
  unfold testConnectedDatabase
  rcases requireConnection_cases s actor organization "connection.test" (some c.id) requestId
    with ⟨-, hreq⟩ | ⟨-, e, hreq⟩
  · rw [hreq]
    dsimp only
    split
    · exact Kept.refl _
    split
    · exact Kept.refl _
    split
    · exact Kept.refl _
    rw [fst_recordThen]
    exact ⟨rfl, rfl, Nat.le_refl _⟩
  · rw [hreq]
    exact ⟨rfl, rfl, Nat.le_refl _⟩

theorem kept_deleteConnectedDatabase (s : Site) (actor organization : Uuid)
    (c : ConnectedDatabase) (requestId : String) :
    Kept s.toState (deleteConnectedDatabase s actor organization c requestId).1.toState := by
  unfold deleteConnectedDatabase
  rcases requireConnection_cases s actor organization "connection.delete" (some c.id) requestId
    with ⟨-, hreq⟩ | ⟨-, e, hreq⟩
  · rw [hreq]
    dsimp only
    rw [fst_recordThen]
    exact ⟨rfl, rfl, Nat.le_refl _⟩
  · rw [hreq]
    exact ⟨rfl, rfl, Nat.le_refl _⟩

theorem nextUuid_postShareGrant (s : Sharing.State) (r : ShareRequest) :
    s.nextUuid ≤ (postShareGrant s r).1.nextUuid := by
  unfold postShareGrant
  split
  · exact Nat.le_refl _
  split
  · exact Nat.le_refl _
  split
  · exact Nat.le_refl _
  rcases createShareGrant_outcome s r with ⟨-, h⟩ | ⟨-, -, h⟩ | ⟨tables, -, -, -, h⟩
  · exact Nat.le_of_eq (congrArg Sharing.State.nextUuid h).symm
  · exact Nat.le_of_eq (congrArg Sharing.State.nextUuid h).symm
  · exact Nat.le_of_lt (Nat.lt_of_lt_of_eq (Nat.lt_succ_self _)
      (congrArg Sharing.State.nextUuid h).symm)

theorem nextUuid_deleteShareGrant (s : Sharing.State) (actor shareId : Uuid)
    (requestId : String) : s.nextUuid ≤ (deleteShareGrant s actor shareId requestId).1.nextUuid := by
  unfold deleteShareGrant
  split
  · exact Nat.le_refl _
  rename_i share _
  rcases revokeShareGrant_outcome s actor share requestId with ⟨-, h⟩ | ⟨-, h⟩
  · exact Nat.le_of_eq (congrArg Sharing.State.nextUuid h).symm
  · exact Nat.le_of_eq (congrArg Sharing.State.nextUuid h).symm

theorem kept_setExternalSharingEnabled (feature : Bool) (p : Platform) (actor organization : Uuid)
    (enabled : Bool) (requestId : String) : Kept p.toState
      (setExternalSharingEnabled feature p actor organization enabled requestId).1.toState := by
  rcases setExternalSharingEnabled_outcome feature p actor organization enabled requestId with
    ⟨-, h⟩ | ⟨-, -, h⟩ | ⟨-, -, h⟩
  · rw [h]
    exact ⟨rfl, rfl, Nat.le_refl _⟩
  · rw [h]
    exact Kept.refl _
  · rw [h]
    exact ⟨rfl, rfl, Nat.le_refl _⟩

/-- A request keeps what each database has to keep by itself. -/
theorem sound_serve (out : Deployment) {p : Platform} (hs : Sound p.toState) (actor : Uuid)
    (requestId : String) (req : Request) :
    Sound (serve out p actor requestId req).1.toState := by
  cases req with
  | schema r => exact sound_handle hs none actor requestId r
  | createConnection projectId spec =>
    unfold serve
    dsimp only
    split
    · exact hs
    · exact (kept_createConnectedDatabase out.connector p.toSite actor _ spec requestId).sound hs
  | testConnection id =>
    unfold serve
    dsimp only
    split
    · exact hs
    · exact (kept_testConnectedDatabase out.connector p.toSite actor _ _ requestId).sound hs
  | deleteConnection id =>
    unfold serve
    dsimp only
    split
    · exact hs
    · exact (kept_deleteConnectedDatabase p.toSite actor _ _ requestId).sound hs
  | createShare r =>
    exact Kept.sound (s := p.toState)
      ⟨rfl, rfl, nextUuid_postShareGrant p.sharing { r with actor, requestId }⟩ hs
  | revokeShare shareId =>
    exact Kept.sound (s := p.toState)
      ⟨rfl, rfl, nextUuid_deleteShareGrant p.sharing actor shareId requestId⟩ hs
  | setExternalSharing organization enabled =>
    unfold serve
    dsimp only
    split
    · exact hs
    · exact (kept_setExternalSharingEnabled out.externalSharing p actor organization enabled
        requestId).sound hs
  | writeRow tableId =>
    unfold serve
    dsimp only
    split
    · exact hs
    · split <;> exact hs

theorem sound_step (out : Deployment) {p : Platform} (a : Action) (hs : Sound p.toState) :
    Sound (step out p a).toState := by
  cases a with
  | request actor incoming generated req => exact sound_serve out hs actor _ req
  | administer => exact ⟨hs.wellFormed, hs.valid⟩
  | advance seconds => exact ⟨hs.wellFormed, hs.valid⟩

/-- The request id is refused exactly where the header is too long; a generated one never is. -/
theorem varcharFits_requestId (incoming : Option String) (generated : Nat) :
    varcharFits 64 (requestId incoming generated) = true ↔
      ∀ header ∈ incoming, header.length ≤ 64 := by
  have hgenerated : varcharFits 64 (String.ofList (Python.uuidText generated)) = true := by
    rw [varcharFits, String.length_ofList, Python.length_uuidText]
    rfl
  cases incoming with
  | none => exact ⟨fun _ _ h => (nomatch h), fun _ => hgenerated⟩
  | some header =>
    rw [requestId]
    by_cases hempty : header = ""
    · rw [if_pos hempty]
      refine ⟨fun _ h hmem => ?_, fun _ => hgenerated⟩
      cases hmem
      rw [hempty]
      decide
    · rw [if_neg hempty, varcharFits, decide_eq_true_iff]
      exact ⟨fun hle h hmem => by cases hmem; exact hle, fun hall => hall header rfl⟩

/-- After every run from an empty catalog, the log holds what it owes a request exactly where its header
fits the column or there is nothing to record, and it is not a denied write of rows. -/
theorem audited_iff (out : Deployment) (p₀ : Platform) (history : List Action)
    (hcat : p₀.catalog = Catalog.empty) (hten : p₀.tenant = Tenant.empty) (actor : Uuid)
    (incoming : Option String) (generated : Nat) (req : Request) :
    Audited out (run (step out) p₀ history) actor (requestId incoming generated) req ↔
      ((req.denied (run (step out) p₀ history) actor = true ∨
          req.changes out (run (step out) p₀ history) actor = true) →
        ∀ header ∈ incoming, header.length ≤ 64) ∧
      (req.writesRow = true → req.denied (run (step out) p₀ history) actor = false) := by
  have hstart : Sound p₀.toState := ⟨hcat ▸ wellFormed_empty _, hten ▸ Tenant.valid_empty⟩
  have hs : Sound (run (step out) p₀ history).toState :=
    run_invariant_of_forall (I := fun p : Platform => Sound p.toState) (fun _ a h => sound_step out a h)
      hstart history
  rw [← varcharFits_requestId incoming generated]
  exact (outcome out hs actor (requestId incoming generated) req).audited

/-! ## One platform -/

/-- A server that accepts every connection, and credentials kept as they are. -/
def openDeployment : Deployment :=
  { connector :=
      { testConnection := fun _ => .ok ()
        encryptCredential := id
        decryptCredential := some }
    externalSharing := false }

/-- An empty project of an owner, 10, and of a member without a role, 20. -/
def emptyPlatform : Platform :=
  { toState := { emptyProject with memberships := [⟨10, 1, none, .active⟩, ⟨20, 1, none, .active⟩] }
    connectedDatabases := []
    organizations := [⟨1, false⟩]
    users := [10, 20]
    teams := []
    buckets := []
    shareGrants := [] }

/-- The database 100 with the table 102. -/
def oneTable : List Action :=
  [.request 10 none 7 (.schema (.createTenantDatabase 5 "crm")),
    .request 10 (some "r-1") 8 (.schema (.createTable 100 "people"))]

theorem audited_iff_oneTable :
    Audited openDeployment (run (step openDeployment) emptyPlatform oneTable) 10
      (requestId (some "r-2") 9) (.schema (.createTable 100 "items")) :=
  (audited_iff openDeployment emptyPlatform oneTable rfl rfl 10 (some "r-2") 9
    (.schema (.createTable 100 "items"))).2 ⟨fun _ => by simp; decide, by decide⟩

/-- A header of 65 characters leaves a new table without an event; the denial of a row write leaves
none either. -/
theorem not_audited_of_long_header :
    ¬ Audited openDeployment (run (step openDeployment) emptyPlatform oneTable) 10
      (requestId (some (String.ofList (List.replicate 65 'x'))) 9)
      (.schema (.createTable 100 "items")) ∧
    ¬ Audited openDeployment (run (step openDeployment) emptyPlatform oneTable) 20
      (requestId none 9) (.writeRow 102) := by
  constructor
  · intro h
    have hnew : ∀ rows, rows = (run (step openDeployment) emptyPlatform oneTable).rows →
        rows.1.tables.length = 1 := by
      rintro _ rfl
      decide
    obtain ⟨e, he, -⟩ := h.effect fun heq => absurd (hnew _ heq) (by decide)
    have hnone : newEvents openDeployment (run (step openDeployment) emptyPlatform oneTable) 10
        (requestId (some (String.ofList (List.replicate 65 'x'))) 9)
        (.schema (.createTable 100 "items")) = [] := by decide
    rw [hnone] at he
    cases he
  · intro h
    obtain ⟨e, he, -⟩ := h.denial (by decide)
    have hnone : newEvents openDeployment (run (step openDeployment) emptyPlatform oneTable) 20
        (requestId none 9) (.writeRow 102) = [] := by decide
    rw [hnone] at he
    cases he

end System
