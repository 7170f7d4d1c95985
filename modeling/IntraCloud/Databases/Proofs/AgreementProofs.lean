import IntraCloud.Databases.Proofs.ServicesProofs

/-!
# Agreement of the tenant schema and the catalog

In every run whose requests are permitted the two databases describe the same schemas, tables, columns
and foreign keys, and a request that raises has changed neither. Creations are made good by their
compensation; a deletion has none, so a fault at its catalog write leaves the catalog behind.
-/

namespace Databases

open Audit Permissions Relational Transition

theorem accepted_eq_some {s : State} {actor : Uuid} {r : SchemaRequest} {svc : Service}
    {plan : Plan} {ten' : Tenant} (hr : r.resolve s actor = .ok svc)
    (hperm : hasPermission s.tables s.now actor svc.permission svc.organization none = true)
    (hplan : svc.plan = .ok plan) (hexec : s.tenant.exec plan.change.ddl = some ten') :
    r.accepted s actor = some plan := by
  simp [SchemaRequest.accepted, hr, hperm, hplan, hexec]

/-- What a request can do to the two databases in a state where they agree. -/
theorem handle_cases {s : State} (hs : Inv s) (fault : Option Fault) (actor : Uuid)
    (requestId : String) (r : SchemaRequest) :
    Untouched s (handle s fault actor requestId r) ∨
    ∃ plan, r.accepted s actor = some plan ∧ fault ≠ some .ddl ∧
      ((r.deletes ≠ none ∧ fault ≠ none) ∨
        (fault = none ∧ (∃ svc, r.Resolved s svc ∧ svc.plan = .ok plan) ∧
          plan.change.write s.catalog = some (handle s fault actor requestId r).1.catalog ∧
          (Unsevered s r → Inv (handle s fault actor requestId r).1) ∧
          ((handle s fault actor requestId r).2 = .ok () ∨ varcharFits 64 requestId = false))) := by
  unfold handle
  cases hr : r.resolve s actor with
  | error e => exact Or.inl ⟨rfl, rfl, Nat.le_refl _, by simp⟩
  | ok svc =>
    dsimp only
    have hres := resolve_ok hr
    rcases call_cases svc s fault actor requestId with
      h | ⟨plan, ten', ⟨hperm, hplan, hexec, hfault⟩, hout⟩
    · exact Or.inl h
    have hacc := accepted_eq_some hr hperm hplan hexec
    rcases hout with ⟨hfail, hcat, hten, hnext, hraised⟩ | ⟨hnone, hwrite, hten, hnext, hok⟩
    · rcases hres.undo hs.valid hplan hexec with ⟨-, hundo⟩ | ⟨hdel, hsome⟩
      · -- a creation: its compensation takes the DDL back
        left
        rw [hundo, Option.getD_some] at hten
        exact ⟨hcat, hten, by rw [hnext]; exact Nat.le_add_right _ _, hraised⟩
      · -- a deletion: its catalog write fails only by a fault
        refine Or.inr ⟨plan, hacc, hfault, Or.inl ⟨hdel, ?_⟩⟩
        rcases hfail with hf | hf
        · simp [hf]
        · rw [hf] at hsome
          cases hsome
    · refine Or.inr ⟨plan, hacc, hfault, Or.inr ⟨hnone, ⟨svc, hres, hplan⟩, hwrite,
        fun hkept => ?_, ?_⟩⟩
      · have hw := hres.wellFormed_write hs.wellFormed hplan hwrite
        have ha := hres.agrees_write hs hplan hkept hexec hwrite
        exact ⟨hnext ▸ hw, hten ▸ ha, hten ▸ hs.valid.exec hexec⟩
      · rw [hres.done_fits] at hok
        exact hok

theorem Inv.of_untouched {s : State} {out : State × Except SchemaError Unit} (hs : Inv s)
    (h : Untouched s out) : Inv out.1 := by
  obtain ⟨hcat, hten, hnext, -⟩ := h
  exact ⟨hcat ▸ hs.wellFormed.mono hnext, hcat ▸ hten ▸ hs.agrees, hten ▸ hs.valid⟩

/-- A permitted step keeps the agreement. -/
theorem inv_step_of_permitted {s : State} {a : Action} (hs : Inv s) (hp : Permitted s a) :
    Inv (step s a) := by
  cases a with
  | request fault actor requestId r =>
    rcases handle_cases hs fault actor requestId r with h | ⟨plan, hacc, hddl, h⟩
    · exact hs.of_untouched h
    rcases hp plan hacc with h' | ⟨hdel, -⟩
    · exact absurd h' hddl
    rcases h with ⟨hd, hf⟩ | ⟨-, -, -, hinv, -⟩
    · obtain ⟨gone, hgone⟩ := Option.ne_none_iff_exists'.1 hd
      exact absurd (hdel gone hgone).1 hf
    · exact hinv fun gone hgone => (hdel gone hgone).2
  | administer memberships projects roleAssignments => exact ⟨hs.wellFormed, hs.agrees, hs.valid⟩
  | advance seconds => exact ⟨hs.wellFormed, hs.agrees, hs.valid⟩

/-- A permitted request that raises changes neither database. -/
theorem unchanged_of_raises {s : State} {a : Action} (hs : Inv s) (hp : Permitted s a)
    (hraises : Raises s a) :
    (step s a).catalog = s.catalog ∧ (step s a).tenant = s.tenant := by
  cases a with
  | request fault actor requestId r =>
    rcases handle_cases hs fault actor requestId r with h | ⟨plan, hacc, hddl, h⟩
    · exact ⟨h.1, h.2.1⟩
    rcases hp plan hacc with h' | ⟨hdel, hfits⟩
    · exact absurd h' hddl
    rcases h with ⟨hd, hf⟩ | ⟨hnone, -, hwrite, -, hok | hlong⟩
    · obtain ⟨gone, hgone⟩ := Option.ne_none_iff_exists'.1 hd
      exact absurd (hdel gone hgone).1 hf
    · exact absurd hok hraises
    · rw [hfits hnone (by rw [hwrite]; rfl)] at hlong
      cases hlong
  | administer => exact hraises.elim
  | advance => exact hraises.elim

/-- From two empty databases, in every run whose requests are all permitted: they agree in every state
the run goes through, and a request that raises has changed neither. -/
theorem agrees_of_permitted (s : State) (as : List Action) (hcat : s.catalog = Catalog.empty)
    (hten : s.tenant = Tenant.empty) (hp : Always step Permitted s as) :
    Always step (fun s a => Agrees (step s a).catalog (step s a).tenant ∧
      (Raises s a → (step s a).catalog = s.catalog ∧ (step s a).tenant = s.tenant)) s as := by
  refine Always.mono_of_invariant (I := Inv) ?_ (fun _ _ => inv_step_of_permitted) ?_ hp
  · intro s a hs hpa
    exact ⟨(inv_step_of_permitted hs hpa).agrees, unchanged_of_raises hs hpa⟩
  · refine ⟨hcat ▸ wellFormed_empty _, ?_, hten ▸ Tenant.valid_empty⟩
    rw [hcat, hten]
    exact ⟨SameMembers.refl _, SameMembers.refl _, SameMembers.refl _, SameMembers.refl _⟩

/-! ## One project -/

/-- Organization 1 with a project 5 and an owner 10, and nothing in it. -/
def emptyProject : State :=
  { now := 100
    memberships := [⟨10, 1, none, .active⟩]
    projects := [⟨5, 1⟩]
    tables :=
      { permissions := []
        roleAssignments := [⟨10, ⟨"owner", ["database.create", "database.schema.manage",
          "database.delete"]⟩, some 1⟩]
        resourceGrants := []
        audit := [] }
    catalog := Catalog.empty
    tenant := Tenant.empty
    nextUuid := 100 }

/-- A request of the owner that meets no fault. -/
def ask (r : SchemaRequest) : Action := .request none 10 "r-1" r

/-- The database 100 with a table 102 whose column 104 is unique, and a table 106. -/
def twoTables : List Action :=
  [ask (.createTenantDatabase 5 "crm"), ask (.createTable 100 "people"),
    ask (.addColumn 102 { name := "code", dataType := .text, isUnique := true }),
    ask (.createTable 100 "orders"), ask (.addColumn 106 { name := "person", dataType := .text })]

theorem agrees_of_permitted_twoTables :
    Always step (fun s a => Agrees (step s a).catalog (step s a).tenant ∧
      (Raises s a → (step s a).catalog = s.catalog ∧ (step s a).tenant = s.tenant)) emptyProject
      (twoTables ++ [ask (.addForeignKey 106 108 102 104 .restrict),
        .request (some .catalogWrite) 10 "r-2" (.createTable 100 "items"),
        ask (.deleteTable 106)]) :=
  agrees_of_permitted emptyProject _ rfl rfl (by decide)

/-- A fault at the catalog write of `delete_table` leaves the row of a table that is gone; and a
request id of 65 characters makes `create_table` raise after both databases have changed. -/
theorem not_agrees_of_delete_fault :
    let s := run step emptyProject
      (twoTables ++ [.request (some .catalogWrite) 10 "r-2" (.deleteTable 106)])
    let s₀ := run step emptyProject twoTables
    let out := handle s₀ none 10 (String.ofList (List.replicate 65 'x')) (.createTable 100 "items")
    ¬ Agrees s.catalog s.tenant ∧ out.2 ≠ .ok () ∧ out.1.catalog ≠ s₀.catalog ∧
      out.1.tenant ≠ s₀.tenant := by
  decide

end Databases
