import IntraCloud.Exports.Atomicity
import IntraCloud.Relational.Proofs.TransactionsProofs

/-!
# When a restore is all or nothing

The tenant connection commits first. What a restore has written there stays if the `COMMIT` of the default
connection fails, and that is the only way in which a call that raises leaves anything.
-/

namespace Exports.Atomicity

open Databases Python Relational Relational.Program

/-! ## Programs that raise nothing of their own -/

theorem smooth_require (action : String) : (require action).Smooth := ⟨trivial, trivial⟩

theorem smooth_assignRole (slug : String) : (assignRole slug).Smooth :=
  ⟨trivial, trivial, trivial, trivial, trivial⟩

theorem smooth_createOrganization (name : String) : (createOrganization name).Smooth :=
  ⟨⟨trivial, trivial, smooth_assignRole _, trivial⟩, trivial⟩

theorem smooth_createTenantDatabase (name : String) : (createTenantDatabase name).Smooth :=
  ⟨smooth_require _, trivial, trivial, trivial, trivial, trivial⟩

theorem smooth_createTable (name : String) : (createTable name).Smooth :=
  ⟨smooth_require _, trivial, trivial, ⟨trivial, trivial⟩, trivial, trivial⟩

theorem smooth_addColumn (spec : ColumnSpec) : (addColumn spec).Smooth := by
  unfold addColumn
  cases spec.isUnique with
  | true => exact ⟨smooth_require _, trivial, trivial, ⟨trivial, trivial, trivial⟩, trivial, trivial⟩
  | false => exact ⟨smooth_require _, trivial, trivial, ⟨trivial, trivial⟩, trivial, trivial⟩

theorem smooth_addForeignKey (fk : ForeignKeyContent) : (addForeignKey fk).Smooth :=
  ⟨smooth_require _, trivial, trivial, trivial, trivial, trivial, trivial, trivial⟩

theorem smooth_restoreTable (t : TableData) : (restoreTable t).Smooth :=
  ⟨trivial, smooth_createTable _, trivial,
    smooth_each fun spec _ => ⟨trivial, smooth_addColumn spec⟩, trivial⟩

theorem smooth_restoreRows (t : TableData × List Csv.Record) : (restoreRows t).Smooth :=
  ⟨trivial, trivial, trivial, smooth_each fun _ _ => ⟨trivial, trivial⟩, trivial⟩

theorem smooth_restoreTenantDatabase {d : DatabasePart}
    (h : (topologicalOrder Prod.fst d.tables).isSome = true) : (restoreTenantDatabase d).Smooth := by
  obtain ⟨order, horder⟩ := Option.isSome_iff_exists.mp h
  have hrows : (restoreAllRows d.tables).Smooth := by
    simp only [restoreAllRows, horder]
    exact smooth_each fun t _ => smooth_restoreRows t
  have hkeys : ∀ t ∈ d.tables, (Program.each t.1.foreignKeys fun fk =>
      Program.seq .compute (addForeignKey fk) : Steps).Smooth :=
    fun t _ => smooth_each fun fk _ => ⟨trivial, smooth_addForeignKey fk⟩
  exact ⟨trivial, smooth_createTenantDatabase _, smooth_each fun t _ => smooth_restoreTable t.1,
    smooth_each hkeys, hrows, trivial⟩

theorem smooth_uploadFile (file : FilePart) : (uploadFile file).Smooth := ⟨trivial, trivial, trivial, trivial⟩

theorem smooth_restoreFiles (files : List FilePart) (cache : List (List String)) :
    (restoreFiles cache files).Smooth := by
  induction files generalizing cache with
  | nil => trivial
  | cons file files ih =>
    have hupload : (if file.oversized then Program.compute else uploadFile file : Steps).Smooth := by
      split
      · trivial
      · exact smooth_uploadFile file
    exact ⟨trivial, smooth_each fun _ _ => trivial, trivial, hupload, ih _, trivial⟩

theorem smooth_restoreBucket (bucket : BucketPart) : (restoreBucket bucket).Smooth :=
  ⟨trivial, trivial, smooth_restoreFiles _ _, trivial⟩

theorem smooth_restoreMembership (entry : MembershipPart) : (restoreMembership entry).Smooth := by
  unfold restoreMembership
  split
  · have hinsert : (if entry.member then Program.skip
        else .atomic .default (insert "organizations.Membership" entry.email) : Steps).Smooth := by
      split <;> trivial
    exact ⟨trivial, trivial, hinsert, smooth_each fun slug _ => smooth_assignRole slug, trivial⟩
  · trivial

theorem mem_databases {package : PackageParts} {d : DatabasePart} :
    d ∈ package.databases ↔
      ∃ workspace ∈ package.workspaces, ∃ project ∈ workspace.projects, d ∈ project.databases := by
  simp only [PackageParts.databases, List.mem_flatMap]

theorem smooth_restoreBody {package : PackageParts}
    (h : ∀ d ∈ package.databases, (topologicalOrder Prod.fst d.tables).isSome = true) :
    (restoreBody package).Smooth := by
  have hworkspaces : ∀ workspace ∈ package.workspaces, (restoreWorkspace workspace).Smooth := by
    intro workspace hworkspace
    refine ⟨trivial, trivial, smooth_each fun project hproject => ?_, trivial⟩
    refine ⟨trivial, trivial, smooth_each fun d hd => ?_, smooth_each fun bucket _ =>
      smooth_restoreBucket bucket, trivial⟩
    exact smooth_restoreTenantDatabase (h d (mem_databases.mpr ⟨workspace, hworkspace, project, hproject, hd⟩))
  exact ⟨smooth_each fun _ _ => trivial, smooth_createOrganization _, smooth_each fun _ _ => trivial,
    smooth_each hworkspaces, smooth_each fun entry _ => smooth_restoreMembership entry, trivial⟩

/-! ## What the tenant connection is used for -/

theorem not_uses_createOrganization (name : String) : ¬ (createOrganization name).Uses .tenant := by
  simp only [createOrganization, assignRole, record, insert, read, Program.all, Uses, reduceCtorEq, or_self,
    not_false_eq_true]

theorem not_uses_restoreFiles (files : List FilePart) (cache : List (List String)) :
    ¬ (restoreFiles cache files).Uses .tenant := by
  induction files generalizing cache with
  | nil => exact id
  | cons file files ih =>
    have hfolders : ¬ (Program.each (missingFolders cache file.folderPath) fun folder =>
        insert "storage.Folder" (folder.getLastD "") : Steps).Uses .tenant := by
      rw [uses_each]
      rintro ⟨_, -, h⟩
      cases h
    have hupload : ¬ (if file.oversized then Program.compute else uploadFile file : Steps).Uses .tenant := by
      split
      · exact id
      · simp only [uploadFile, record, insert, Program.all, Uses, reduceCtorEq, or_self, not_false_eq_true]
    rintro (h | h | h | h | h | h)
    · exact h
    · exact hfolders h
    · exact h
    · exact hupload h
    · exact ih _ h
    · exact h

theorem not_uses_restoreBucket (bucket : BucketPart) : ¬ (restoreBucket bucket).Uses .tenant := by
  rintro (h | h | h | h)
  · exact h
  · cases h
  · exact not_uses_restoreFiles _ _ h
  · exact h

theorem not_uses_restoreMembership (entry : MembershipPart) : ¬ (restoreMembership entry).Uses .tenant := by
  have hroles : ¬ (Program.each (entry.roleSlugs.filter (· ≠ "organization-administrator")) fun slug =>
      .ignoring (assignRole slug) : Steps).Uses .tenant := by
    rw [uses_each]
    rintro ⟨slug, -, h⟩
    simp only [assignRole, record, insert, read, Program.all, Uses, reduceCtorEq, or_self] at h
  unfold restoreMembership
  split
  · rintro (h | h | h | h | h)
    · cases h
    · cases h
    · split at h
      · exact h
      · rcases h with h | h <;> cases h
    · exact hroles h
    · exact h
  · intro h
    cases h

/-- Without a tenant database the tenant connection has nothing to do. -/
theorem not_uses_restoreBody {package : PackageParts} (h : package.databases = []) :
    ¬ (restoreBody package).Uses .tenant := by
  have hnone : ∀ workspace ∈ package.workspaces, ∀ project ∈ workspace.projects, project.databases = [] := by
    intro workspace hworkspace project hproject
    refine List.eq_nil_iff_forall_not_mem.mpr fun d hd => ?_
    have hmem := mem_databases.mpr ⟨workspace, hworkspace, project, hproject, hd⟩
    exact absurd (h ▸ hmem) List.not_mem_nil
  rintro (hreads | horganization | hteams | hworkspaces | hmembers | hend)
  · obtain ⟨_, -, h⟩ := uses_each.mp hreads
    cases h
  · exact not_uses_createOrganization _ horganization
  · obtain ⟨_, -, h⟩ := uses_each.mp hteams
    cases h
  · obtain ⟨workspace, hworkspace, hworkspaces⟩ := uses_each.mp hworkspaces
    rcases hworkspaces with h | h | hprojects | h
    · exact h
    · cases h
    · obtain ⟨project, hproject, hprojects⟩ := uses_each.mp hprojects
      rcases hprojects with h | h | hdatabases | hbuckets | h
      · exact h
      · cases h
      · rw [hnone workspace hworkspace project hproject] at hdatabases
        obtain ⟨_, hd, -⟩ := uses_each.mp hdatabases
        exact absurd hd List.not_mem_nil
      · obtain ⟨bucket, -, hbucket⟩ := uses_each.mp hbuckets
        exact not_uses_restoreBucket bucket hbucket
      · exact h
    · exact h
  · obtain ⟨entry, -, hentry⟩ := uses_each.mp hmembers
    exact not_uses_restoreMembership entry hentry
  · exact hend

/-- A tenant database has its schema created. -/
theorem createSchema_mem {package : PackageParts} {d : DatabasePart} (hd : d ∈ package.databases) :
    .ddl "CREATE SCHEMA" d.name ∈ (restoreBody package).statements .tenant := by
  obtain ⟨workspace, hworkspace, project, hproject, hd⟩ := mem_databases.mp hd
  have hcreate : .ddl "CREATE SCHEMA" d.name ∈ (createTenantDatabase d.name).statements .tenant :=
    List.mem_singleton_self _
  have hdatabase : .ddl "CREATE SCHEMA" d.name ∈ (restoreTenantDatabase d).statements .tenant :=
    List.mem_append_right _ (List.mem_append_left _ hcreate)
  have hprojects : .ddl "CREATE SCHEMA" d.name ∈ (restoreProject project).statements .tenant := by
    refine List.mem_append_right _ (List.mem_append_right _ (List.mem_append_left _ ?_))
    rw [statements_each]
    exact List.mem_flatMap.mpr ⟨d, hd, hdatabase⟩
  have hworkspaces : .ddl "CREATE SCHEMA" d.name ∈ (restoreWorkspace workspace).statements .tenant := by
    refine List.mem_append_right _ (List.mem_append_right _ (List.mem_append_left _ ?_))
    rw [statements_each]
    exact List.mem_flatMap.mpr ⟨project, hproject, hprojects⟩
  refine List.mem_append_right _ (List.mem_append_right _ (List.mem_append_right _
    (List.mem_append_left _ ?_)))
  rw [statements_each]
  exact List.mem_flatMap.mpr ⟨workspace, hworkspace, hworkspaces⟩

theorem run_of_ne {s : Statement} (h : s ≠ .select) (written : List Statement) :
    s.run written = written ++ [s] := by
  cases s with
  | select => exact absurd rfl h
  | insert => rfl
  | ddl => rfl

/-- What is written is appended. -/
theorem prefix_foldl_run (ss written : List Statement) :
    ∃ more, ss.foldl (fun data s => Statement.run s data) written = written ++ more ∧
      ∀ s ∈ ss, s ≠ .select → s ∈ more := by
  induction ss generalizing written with
  | nil => exact ⟨[], (List.append_nil written).symm, fun _ hs => absurd hs List.not_mem_nil⟩
  | cons t ss ih =>
    obtain ⟨more, hmore, hmem⟩ := ih (t.run written)
    rw [List.foldl_cons, hmore]
    by_cases ht : t = .select
    · subst ht
      refine ⟨more, rfl, fun s hs hne => ?_⟩
      exact hmem s ((List.mem_cons.mp hs).resolve_left hne) hne
    · refine ⟨t :: more, by rw [run_of_ne ht, ← List.append_cons], fun s hs hne => ?_⟩
      rcases List.mem_cons.mp hs with rfl | hs
      · exact List.mem_cons_self
      · exact List.mem_cons_of_mem _ (hmem s hs hne)

/-- Where the tables of a database have no order, the restore raises. -/
theorem eval_restoreBody_of_unordered {package : PackageParts} {d : DatabasePart}
    (hd : d ∈ package.databases) (horder : topologicalOrder Prod.fst d.tables = none)
    (x : Circumstances Alias) (w : World Alias (List Statement)) :
    ((restoreBody package).eval Statement.run x w).2 = false := by
  obtain ⟨workspace, hworkspace, project, hproject, hd⟩ := mem_databases.mp hd
  have hrows : ∀ w : World Alias (List Statement),
      ((restoreAllRows d.tables).eval Statement.run x w).2 = false := by
    intro w
    simp only [restoreAllRows, horder, eval]
  have hdatabase : ∀ w : World Alias (List Statement),
      ((restoreTenantDatabase d).eval Statement.run x w).2 = false :=
    eval_all_of_raises (by simp only [List.mem_cons, true_or, or_true]) hrows
  have hprojects : ∀ w : World Alias (List Statement),
      ((restoreProject project).eval Statement.run x w).2 = false :=
    eval_all_of_raises (p := .each project.databases restoreTenantDatabase)
      (by simp only [List.mem_cons, true_or, or_true]) (eval_each_of_raises hd hdatabase)
  have hworkspaces : ∀ w : World Alias (List Statement),
      ((restoreWorkspace workspace).eval Statement.run x w).2 = false :=
    eval_all_of_raises (p := .each workspace.projects restoreProject)
      (by simp only [List.mem_cons, true_or, or_true]) (eval_each_of_raises hproject hprojects)
  exact eval_all_of_raises (p := .each package.workspaces restoreWorkspace)
    (by simp only [List.mem_cons, true_or, or_true]) (eval_each_of_raises hworkspace hworkspaces) w

/-! ## All or nothing -/

/-- Both databases before anything is written. -/
def blank : World Alias (List Statement) := ⟨fun _ => ⟨[], [], [], false⟩, 0⟩

/-- Whichever steps fail, a restore is all or nothing exactly where the `COMMIT` of the default connection
goes through or that of the tenant connection does not, or the package has no tenant database, or one the
tables of which have no order. -/
theorem allOrNothing_iff (package : PackageParts) (commits : Alias → Bool) :
    (∀ (fails : Nat → Bool) (before : World Alias (List Statement)),
        (∀ c, (before.connection c).Idle) →
        AllOrNothing before
          ((restorePackageSteps package).eval Statement.run ⟨fails, commits⟩ before)) ↔
      commits .default = true ∨ commits .tenant = false ∨ package.databases = [] ∨
        ∃ d ∈ package.databases, topologicalOrder Prod.fst d.tables = none := by
  have hne : Alias.default ≠ Alias.tenant := by decide
  constructor
  · intro hall
    by_contra hcond
    simp only [not_or, not_exists, not_and, Bool.not_eq_true, Bool.not_eq_false] at hcond
    obtain ⟨hdefault, htenant, hsome, horder⟩ := hcond
    have hsmooth : (restoreBody package).Smooth := by
      refine smooth_restoreBody fun d hd => ?_
      exact Option.isSome_iff_ne_none.mpr (horder d hd)
    have halias : ∀ c : Alias, c = .default ∨ c = .tenant := by
      intro c
      cases c with
      | default => exact .inl rfl
      | tenant => exact .inr rfl
    obtain ⟨hraised, hwritten⟩ := nested_of_smooth (r := Statement.run) (x := ⟨fun _ => false, commits⟩)
      (w := blank.tick) hne halias ⟨rfl, rfl, rfl⟩ ⟨rfl, rfl, rfl⟩ hsmooth (fun _ => rfl) htenant
    have hsame := hall (fun _ => false) blank (fun _ => ⟨rfl, rfl, rfl⟩) (hraised.trans hdefault) .tenant
    obtain ⟨d, ds, hd⟩ := List.exists_cons_of_ne_nil hsome
    obtain ⟨more, hmore, hmem⟩ := prefix_foldl_run ((restoreBody package).statements .tenant) []
    have hcreate := hmem _ (createSchema_mem (hd ▸ List.mem_cons_self : d ∈ package.databases))
      (by simp only [ne_eq, reduceCtorEq, not_false_eq_true])
    have hempty : more = [] := (hmore.symm.trans hwritten.symm).trans hsame
    exact absurd (hempty ▸ hcreate) List.not_mem_nil
  · intro hcond fails before hidle hraised
    cases hfirst : fails before.step with
    | true =>
      simp only [restorePackageSteps, eval, hfirst, Bool.not_true, Bool.false_eq_true, if_false]
      exact fun _ => rfl
    | false =>
      have hopened : (restorePackageSteps package).eval Statement.run ⟨fails, commits⟩ before =
          (Program.atomic .default (.atomic .tenant (restoreBody package))).eval Statement.run
            ⟨fails, commits⟩ before.tick := by
        rw [restorePackageSteps, eval]
        simp only [eval, hfirst, Bool.not_false, if_true]
      rw [hopened] at hraised ⊢
      obtain ⟨hdefault, htenant⟩ := nested_cases (w := before.tick) hne (hidle .default).blocks
        (hidle .tenant).blocks hraised
      intro c
      cases c with
      | default => exact hdefault
      | tenant =>
        rcases htenant with hsame | ⟨hinner, houter, hbody, hwork⟩
        · exact hsame
        · rcases hcond with hcommit | hcommit | hnone | ⟨d, hd, horder⟩
          · exact absurd (houter.symm.trans hcommit) Bool.false_ne_true
          · exact absurd (hcommit.symm.trans hinner) Bool.false_ne_true
          · rw [connection_eval_of_not_uses _ _ (not_uses_restoreBody hnone), World.connection_on] at hwork
            exact hwork.trans (hidle .tenant).working
          · have hraises := eval_restoreBody_of_unordered hd horder ⟨fails, commits⟩
              ((before.tick.on .default Connection.enter).on .tenant Connection.enter)
            exact absurd (hraises.symm.trans hbody) Bool.false_ne_true

/-- A project with one empty database. -/
def oneDatabase : PackageParts :=
  ⟨"Acme", 0, [], [⟨"Main", [⟨"Site", [⟨"crm", []⟩], []⟩]⟩], []⟩

/-- The `COMMIT` of the default connection fails, and the schema stays. -/
theorem not_allOrNothing_of_commit :
    ¬ ∀ package fails commits before, (∀ c, (before.connection c).Idle) →
      AllOrNothing before ((restorePackageSteps package).eval Statement.run ⟨fails, commits⟩ before) := by
  intro hall
  have hsame := hall oneDatabase (fun _ => false) (fun c => c == .tenant) blank (fun _ => ⟨rfl, rfl, rfl⟩)
    rfl .tenant
  have hwritten : (((restorePackageSteps oneDatabase).eval Statement.run
      ⟨fun _ => false, fun c => c == .tenant⟩ blank).1.connection .tenant).committed =
      [.ddl "CREATE SCHEMA" "crm"] := rfl
  exact absurd (hwritten.symm.trans hsame) (List.cons_ne_nil _ _)

end Exports.Atomicity
