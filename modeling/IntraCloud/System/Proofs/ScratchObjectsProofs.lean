import IntraCloud.System.ScratchObjects
import IntraCloud.System.Proofs.RestorableProofs
import Mathlib.Tactic.ByCases

/-!
# When the verification leaves the bucket as it was

While the loop runs, the keys that it has recorded are those of the members restored so far, and the other keys
are as they were. The one exception is a put that fails after it has taken effect.
-/

namespace Backups

open Python

variable {Key : Type} {env : Env Key} {p : List Char} {manifest : PyJson} {b : Bucket} {s : Scratch}
  {m : TarMember} {c : Circumstances} {data : Bytes} {before rest : List (TarMember × Circumstances)}

/-! ## The bucket -/

theorem get_delete_self (key : List Char) : (b.delete key).get key = none := by
  unfold Bucket.get
  rw [Option.map_eq_none_iff, List.find?_eq_none]
  intro o ho heq
  exact of_decide_eq_true (List.mem_filter.mp ho).2 (of_decide_eq_true heq)

theorem get_delete_of_ne {key k : List Char} (h : k ≠ key) : (b.delete key).get k = b.get k := by
  unfold Bucket.get Bucket.delete
  dsimp only
  rw [List.find?_filter]
  congr 2
  funext o
  by_cases hk : o.1 = k
  · have hne : o.1 ≠ key := by
      rw [hk]
      exact h
    simp [hk, h]
  · simp [hk]

theorem get_put_of_ne {key k : List Char} (h : k ≠ key) : (b.put key data).get k = b.get k := by
  have hput : (b.put key data).get k = (b.delete key).get k := by
    unfold Bucket.get
    show (((b.delete key).objects ++ [(key, data)]).find? fun o => o.1 = k).map (·.2) = _
    rw [List.find?_append]
    have hlast : [(key, data)].find? (fun o : List Char × Bytes => decide (o.1 = k)) = none := by
      rw [List.find?_cons_of_neg]
      · rfl
      · simpa using Ne.symm h
    rw [hlast, Option.or_none]
  rw [hput, get_delete_of_ne h]

theorem get_foldl_delete (keys : List (List Char)) (k : List Char) :
    (keys.foldl Bucket.delete b).get k = if k ∈ keys then none else b.get k := by
  induction keys generalizing b with
  | nil => rw [if_neg (List.not_mem_nil), List.foldl_nil]
  | cons key keys ih =>
    rw [List.foldl_cons, ih]
    by_cases hmem : k ∈ keys
    · rw [if_pos hmem, if_pos (List.mem_cons_of_mem _ hmem)]
    · rw [if_neg hmem]
      by_cases heq : k = key
      · subst heq
        rw [if_pos (List.mem_cons_self ..), get_delete_self]
      · rw [get_delete_of_ne heq, if_neg]
        intro h
        rcases List.mem_cons.mp h with h | h
        · exact heq h
        · exact hmem h

/-- After the clean-up the recorded keys are gone. -/
theorem get_swept (k : List Char) : s.swept.get k = if k ∈ s.restoredKeys then none else s.bucket.get k :=
  get_foldl_delete s.restoredKeys k

/-! ## One member -/

theorem restoreMembers_of_error {s' : Scratch} {e : VerificationError} (h : Restores env manifest m data)
    (hfile : restoreFile env p manifest c s m.name data = (s', .error e)) :
    (restoreMembers env p manifest s ((m, c) :: rest)).1 = s' := by
  rw [restoreMembers, if_neg h.1, h.2.1]
  dsimp only
  rw [hfile]

theorem restoreMembers_of_ok {s' : Scratch} (h : Restores env manifest m data)
    (hfile : restoreFile env p manifest c s m.name data = (s', .ok ())) :
    restoreMembers env p manifest s ((m, c) :: rest) = restoreMembers env p manifest s' rest := by
  rw [restoreMembers, if_neg h.1, h.2.1]
  dsimp only
  rw [hfile]

/-- After the checks comes the put. -/
theorem restoreFile_of_refused (h : Restores env manifest m data) (hput : c.put = .refused) :
    restoreFile env p manifest c s m.name data = (s, .error .raised) := by
  obtain ⟨-, -, expected, hexpected, hhash⟩ := h
  unfold restoreFile
  rw [hexpected]
  dsimp only
  rw [if_neg (not_not_intro hhash), hput]

theorem restoreFile_of_failedAfter (h : Restores env manifest m data) (hput : c.put = .failedAfter) :
    restoreFile env p manifest c s m.name data =
      (⟨s.bucket.put (p ++ m.name) data, s.restoredKeys⟩, .error .raised) := by
  obtain ⟨-, -, expected, hexpected, hhash⟩ := h
  unfold restoreFile
  rw [hexpected]
  dsimp only
  rw [if_neg (not_not_intro hhash), hput]

/-- A key is recorded once its put has returned, whether the object is read back or not. -/
theorem restoreFile_of_unread (h : Restores env manifest m data) (hput : c.put = .done) (hrereads : c.rereads = false) :
    restoreFile env p manifest c s m.name data =
      (⟨s.bucket.put (p ++ m.name) data, s.restoredKeys ++ [p ++ m.name]⟩, .error .raised) := by
  obtain ⟨-, -, expected, hexpected, hhash⟩ := h
  unfold restoreFile
  rw [hexpected]
  dsimp only
  rw [if_neg (not_not_intro hhash), hput, hrereads]
  rfl

theorem restoreFile_of_done (h : Restores env manifest m data) (hput : c.put = .done) (hrereads : c.rereads = true) :
    restoreFile env p manifest c s m.name data =
      (⟨s.bucket.put (p ++ m.name) data, s.restoredKeys ++ [p ++ m.name]⟩, .ok ()) := by
  obtain ⟨-, -, expected, hexpected, hhash⟩ := h
  unfold restoreFile
  rw [hexpected]
  dsimp only
  rw [if_neg (not_not_intro hhash), hput, hrereads]
  dsimp only
  rw [get_put, Option.map_some, if_neg (not_not_intro rfl)]
  rfl

/-- The loop stops at a member that is neither passed over nor put. -/
theorem restoreMembers_of_not_restores (hname : m.name ≠ MANIFEST) (hfile : m.extracted ≠ .noFile)
    (h : ∀ data, ¬ Restores env manifest m data) : (restoreMembers env p manifest s ((m, c) :: rest)).1 = s := by
  rw [restoreMembers, if_neg hname]
  cases hextracted : m.extracted with
  | noFile => exact absurd hextracted hfile
  | raises => rfl
  | file data =>
    dsimp only
    unfold restoreFile
    cases hexpected : expectedHash manifest m.name with
    | error e => rfl
    | ok expected =>
      dsimp only
      rw [if_pos]
      intro hhash
      exact h data ⟨hname, hextracted, expected, hexpected, hhash⟩

/-- A member that is no file, or the manifest, is passed over. -/
theorem restoreMembers_of_skipped (h : m.name = MANIFEST ∨ m.extracted = .noFile) :
    restoreMembers env p manifest s ((m, c) :: rest) = restoreMembers env p manifest s rest := by
  rw [restoreMembers]
  by_cases hname : m.name = MANIFEST
  · rw [if_pos hname]
  · rw [if_neg hname, h.resolve_left hname]

theorem not_restores_of_skipped (h : m.name = MANIFEST ∨ m.extracted = .noFile) :
    ¬ Restores env manifest m data := by
  rintro ⟨hname, hfile, -⟩
  rcases h with h | h
  · exact hname h
  · rw [hfile] at h
    cases h

/-- A member that is put is passed where the object store does both calls. -/
theorem passes_iff (h : Restores env manifest m data) :
    Passes env manifest (m, c) ↔ c.put = .done ∧ c.rereads = true := by
  constructor
  · rintro (hname | hfile | ⟨-, hdone⟩)
    · exact absurd h (not_restores_of_skipped (Or.inl hname))
    · exact absurd h (not_restores_of_skipped (Or.inr hfile))
    · exact hdone
  · intro hdone
    exact Or.inr (Or.inr ⟨⟨data, h⟩, hdone⟩)

/-! ## The loop -/

/-- Where the loop stands after the members `before`. -/
structure Mirrors (env : Env Key) (p : List Char) (manifest : PyJson) (b : Bucket)
    (before : List (TarMember × Circumstances)) (s : Scratch) : Prop where
  recorded : ∀ k, k ∈ s.restoredKeys ↔
    ∃ e ∈ before, (∃ data, Restores env manifest e.1 data) ∧ p ++ e.1.name = k
  others : ∀ k, k ∉ s.restoredKeys → s.bucket.get k = b.get k

theorem mirrors_start : Mirrors env p manifest b [] ⟨b, []⟩ where
  recorded k := by simp
  others _ _ := rfl

theorem Mirrors.skip (h : Mirrors env p manifest b before s) (hno : ∀ data, ¬ Restores env manifest m data) :
    Mirrors env p manifest b (before ++ [(m, c)]) s where
  recorded k := by
    rw [h.recorded]
    constructor
    · rintro ⟨e, he, hrestores⟩
      exact ⟨e, List.mem_append_left _ he, hrestores⟩
    · rintro ⟨e, he, ⟨data, hdata⟩, hkey⟩
      rcases List.mem_append.mp he with he | he
      · exact ⟨e, he, ⟨data, hdata⟩, hkey⟩
      · rw [List.mem_singleton.mp he] at hdata
        exact absurd hdata (hno data)
  others := h.others

theorem Mirrors.put (h : Mirrors env p manifest b before s) (hdata : Restores env manifest m data) :
    Mirrors env p manifest b (before ++ [(m, c)])
      ⟨s.bucket.put (p ++ m.name) data, s.restoredKeys ++ [p ++ m.name]⟩ where
  recorded k := by
    rw [List.mem_append, h.recorded]
    constructor
    · rintro (⟨e, he, hrestores⟩ | hk)
      · exact ⟨e, List.mem_append_left _ he, hrestores⟩
      · exact ⟨(m, c), List.mem_append_right _ (List.mem_singleton_self _), ⟨data, hdata⟩,
          (List.mem_singleton.mp hk).symm⟩
    · rintro ⟨e, he, hrestores, hkey⟩
      rcases List.mem_append.mp he with he | he
      · exact Or.inl ⟨e, he, hrestores, hkey⟩
      · rw [List.mem_singleton.mp he] at hkey
        exact Or.inr (List.mem_singleton.mpr hkey.symm)
  others k hk := by
    have hne : k ≠ p ++ m.name := fun heq => hk (List.mem_append_right _ (List.mem_singleton.mpr heq))
    have hother : k ∉ s.restoredKeys := fun hmem => hk (List.mem_append_left _ hmem)
    rw [get_put_of_ne hne, h.others k hother]

/-- The clean-up after the members `before` restores the bucket where there was nothing under their keys. -/
theorem Mirrors.swept_iff (h : Mirrors env p manifest b before s) :
    (∀ k, s.swept.get k = b.get k) ↔ ∀ k ∈ s.restoredKeys, b.get k = none := by
  constructor
  · intro hsame k hk
    rw [← hsame k, get_swept, if_pos hk]
  · intro hnone k
    rw [get_swept]
    by_cases hk : k ∈ s.restoredKeys
    · rw [if_pos hk, hnone k hk]
    · rw [if_neg hk, h.others k hk]

/-- `Traceless` for the members after `before`. -/
def TracelessFrom (env : Env Key) (p : List Char) (manifest : PyJson) (b : Bucket)
    (before members : List (TarMember × Circumstances)) : Prop :=
  ∀ mid e after data, members = mid ++ e :: after → (∀ earlier ∈ mid, Passes env manifest earlier) →
    Restores env manifest e.1 data → LeavesNoTrace env p manifest b (before ++ mid) e data

theorem tracelessFrom_nil : TracelessFrom env p manifest b before [] := by
  intro mid e after data heq
  exact absurd heq.symm (List.append_ne_nil_of_right_ne_nil _ (List.cons_ne_nil e after))

theorem tracelessFrom_cons {e : TarMember × Circumstances} :
    TracelessFrom env p manifest b before (e :: rest) ↔
      (∀ data, Restores env manifest e.1 data → LeavesNoTrace env p manifest b before e data) ∧
        (Passes env manifest e → TracelessFrom env p manifest b (before ++ [e]) rest) := by
  constructor
  · intro h
    constructor
    · intro data hdata
      have hhead := h [] e rest data rfl nofun hdata
      rw [List.append_nil] at hhead
      exact hhead
    · intro hpasses mid e' after data heq hmid hdata
      have hcons : ∀ earlier ∈ e :: mid, Passes env manifest earlier := by
        intro earlier hearlier
        rcases List.mem_cons.mp hearlier with rfl | hearlier
        · exact hpasses
        · exact hmid earlier hearlier
      have htail := h (e :: mid) e' after data (by rw [heq, List.cons_append]) hcons hdata
      rw [List.append_assoc]
      exact htail
  · rintro ⟨hhead, htail⟩ mid e' after data heq hmid hdata
    cases mid with
    | nil =>
      obtain ⟨rfl, -⟩ := List.cons.inj heq
      rw [List.append_nil]
      exact hhead data hdata
    | cons e'' mid =>
      rw [List.cons_append] at heq
      obtain ⟨rfl, hrest⟩ := List.cons.inj heq
      have hnext := htail (hmid e (List.mem_cons_self ..)) mid e' after data hrest
        (fun earlier hearlier => hmid earlier (List.mem_cons_of_mem _ hearlier)) hdata
      rw [List.append_assoc] at hnext
      exact hnext

/-- What is left of a put that failed after all. -/
theorem swept_failedAfter_iff (h : Mirrors env p manifest b before s) :
    (∀ k, (Scratch.swept ⟨s.bucket.put (p ++ m.name) data, s.restoredKeys⟩).get k = b.get k) ↔
      (∀ k ∈ s.restoredKeys, b.get k = none) ∧ (b.get (p ++ m.name) = some data ∨
        ∃ earlier ∈ before, earlier.1.name = m.name ∧ ∃ data', Restores env manifest earlier.1 data') := by
  have hrecorded : p ++ m.name ∈ s.restoredKeys ↔
      ∃ earlier ∈ before, earlier.1.name = m.name ∧ ∃ data', Restores env manifest earlier.1 data' := by
    rw [h.recorded]
    constructor
    · rintro ⟨e, he, hrestores, hkey⟩
      exact ⟨e, he, List.append_cancel_left hkey, hrestores⟩
    · rintro ⟨e, he, hname, hrestores⟩
      exact ⟨e, he, hrestores, by rw [hname]⟩
  rw [← hrecorded]
  constructor
  · intro hsame
    constructor
    · intro k hk
      rw [← hsame k, get_swept, if_pos hk]
    · by_cases hk : p ++ m.name ∈ s.restoredKeys
      · exact Or.inr hk
      · rw [← hsame (p ++ m.name), get_swept, if_neg hk, get_put]
        exact Or.inl rfl
  · rintro ⟨hnone, hkey⟩ k
    rw [get_swept]
    by_cases hk : k ∈ s.restoredKeys
    · rw [if_pos hk, hnone k hk]
    · rw [if_neg hk]
      by_cases heq : k = p ++ m.name
      · subst heq
        rw [get_put, hkey.resolve_right hk]
      · rw [get_put_of_ne heq, h.others k hk]

/-- What a member that is put adds to the condition. -/
theorem leavesNoTrace_iff (hdata : Restores env manifest m data) :
    (∀ data, Restores env manifest m data → LeavesNoTrace env p manifest b before (m, c) data) ↔
      LeavesNoTrace env p manifest b before (m, c) data := by
  constructor
  · intro h
    exact h data hdata
  · intro h data' hdata'
    obtain rfl : data = data' := Extracted.file.inj (hdata.2.1.symm.trans hdata'.2.1)
    exact h

theorem forall_mem_append_singleton {P : List Char → Prop} {keys : List (List Char)} {key : List Char} :
    (∀ k ∈ keys ++ [key], P k) ↔ (∀ k ∈ keys, P k) ∧ P key := by
  rw [List.forall_mem_append, List.forall_mem_singleton]

/-- The loop and the clean-up leave the bucket as it was exactly where no member leaves a trace. -/
theorem swept_restoreMembers_iff (h : Mirrors env p manifest b before s) :
    (∀ k, (restoreMembers env p manifest s rest).1.swept.get k = b.get k) ↔
      (∀ k ∈ s.restoredKeys, b.get k = none) ∧ TracelessFrom env p manifest b before rest := by
  induction rest generalizing s before with
  | nil =>
    rw [restoreMembers, h.swept_iff]
    exact ⟨fun hnone => ⟨hnone, tracelessFrom_nil⟩, fun hnone => hnone.1⟩
  | cons e rest ih =>
    obtain ⟨m, c⟩ := e
    rw [tracelessFrom_cons]
    by_cases hskipped : m.name = MANIFEST ∨ m.extracted = .noFile
    · have hno : ∀ data, ¬ Restores env manifest m data := fun data => not_restores_of_skipped hskipped
      have hpasses : Passes env manifest (m, c) := hskipped.imp_right Or.inl
      rw [restoreMembers_of_skipped hskipped, ih (h.skip hno)]
      refine and_congr_right fun _ => ?_
      exact ⟨fun htail => ⟨fun data hdata => absurd hdata (hno data), fun _ => htail⟩, fun hcons => hcons.2 hpasses⟩
    · rw [not_or] at hskipped
      by_cases hrestores : ∃ data, Restores env manifest m data
      · obtain ⟨data, hdata⟩ := hrestores
        rw [leavesNoTrace_iff hdata, passes_iff hdata]
        unfold LeavesNoTrace
        cases hput : c.put with
        | refused =>
          rw [restoreMembers_of_error hdata (restoreFile_of_refused hdata hput), h.swept_iff]
          have hdone : PutOutcome.refused ≠ .done := by decide
          have hfailed : PutOutcome.refused ≠ .failedAfter := by decide
          exact ⟨fun hnone => ⟨hnone, ⟨fun h => absurd h hdone, fun h => absurd h hfailed⟩,
            fun hpasses => absurd hpasses.1 hdone⟩, fun hall => hall.1⟩
        | failedAfter =>
          rw [restoreMembers_of_error hdata (restoreFile_of_failedAfter hdata hput), swept_failedAfter_iff h]
          refine and_congr_right fun _ => ?_
          have hdone : PutOutcome.failedAfter ≠ .done := by decide
          exact ⟨fun hkey => ⟨⟨fun h => absurd h hdone, fun _ => hkey⟩, fun hpasses => absurd hpasses.1 hdone⟩,
            fun hall => hall.1.2 rfl⟩
        | done =>
          have hfailed : PutOutcome.done ≠ .failedAfter := by decide
          by_cases hrereads : c.rereads = true
          · rw [restoreMembers_of_ok hdata (restoreFile_of_done hdata hput hrereads), ih (h.put hdata),
              forall_mem_append_singleton, and_assoc]
            refine and_congr_right fun _ => ?_
            constructor
            · rintro ⟨hkey, htail⟩
              exact ⟨⟨fun _ => hkey, fun h => absurd h hfailed⟩, fun _ => htail⟩
            · rintro ⟨⟨hkey, -⟩, htail⟩
              exact ⟨hkey rfl, htail ⟨rfl, hrereads⟩⟩
          · have hno := (Bool.not_eq_true _).mp hrereads
            have hmirrors : Mirrors env p manifest b (before ++ [(m, c)])
                ⟨s.bucket.put (p ++ m.name) data, s.restoredKeys ++ [p ++ m.name]⟩ := h.put hdata
            rw [restoreMembers_of_error hdata (restoreFile_of_unread hdata hput hno), hmirrors.swept_iff,
              forall_mem_append_singleton]
            refine and_congr_right fun _ => ?_
            constructor
            · intro hkey
              exact ⟨⟨fun _ => hkey, fun h => absurd h hfailed⟩, fun hpasses => absurd hpasses.2 hrereads⟩
            · intro hall
              exact hall.1.1 rfl
      · have hno : ∀ data, ¬ Restores env manifest m data := fun data hdata => hrestores ⟨data, hdata⟩
        have hstops : ¬ Passes env manifest (m, c) := by
          rintro (hname | hfile | ⟨hdata, -⟩)
          · exact hskipped.1 hname
          · exact hskipped.2 hfile
          · exact hrestores hdata
        rw [restoreMembers_of_not_restores hskipped.1 hskipped.2 hno, h.swept_iff]
        constructor
        · intro hnone
          exact ⟨hnone, fun data hdata => absurd hdata (hno data), fun hpasses => absurd hpasses hstops⟩
        · intro hall
          exact hall.1

/-! ## The verification -/

/-- Whatever fails, the verification leaves the bucket as it was exactly where it leaves no trace. -/
theorem bucketAfter_iff (env : Env Key) (cs : Nat → Circumstances) (w : World) (record : BackupRecord) :
    (∀ key, (bucketAfter env cs w record).get key = w.bucket.get key) ↔ NoTrace env cs w record := by
  unfold bucketAfter NoTrace
  by_cases hbackup : record.status ≠ .success ∨ record.filePath = []
  · rw [if_pos hbackup]
    refine iff_of_true (fun _ => rfl) ?_
    intro data members manifest hsuccess hpath
    rcases hbackup with hbackup | hbackup
    · exact absurd hsuccess hbackup
    · exact absurd hbackup hpath
  · rw [if_neg hbackup]
    rw [not_or, not_not] at hbackup
    obtain ⟨hsuccess, hpath⟩ := hbackup
    unfold restoreArchive verifyArchive
    have hunchanged : ∀ key, (Scratch.swept ⟨w.bucket, []⟩).get key = w.bucket.get key := fun _ => rfl
    cases hplain : plainContent env w record.filePath with
    | error e =>
      refine iff_of_true hunchanged ?_
      intro data members manifest _ _ hdata
      cases hdata
    | ok data =>
      dsimp only
      cases hmembers : env.tar.getmembers data with
      | none =>
        refine iff_of_true hunchanged ?_
        intro data' members manifest _ _ hdata hmembers'
        cases hdata
        rw [hmembers] at hmembers'
        cases hmembers'
      | some members =>
        dsimp only
        cases hmanifest : readManifest members with
        | error e =>
          refine iff_of_true hunchanged ?_
          intro data' members' manifest _ _ hdata hmembers' hmanifest'
          cases hdata
          obtain rfl := Option.some.inj (hmembers.symm.trans hmembers')
          rw [hmanifest] at hmanifest'
          cases hmanifest'
        | ok manifest =>
          have hstart : Mirrors env (scratchPrefix record) manifest w.bucket [] ⟨w.bucket, []⟩ := mirrors_start
          rw [swept_restoreMembers_iff hstart]
          constructor
          · rintro ⟨-, htraceless⟩ data' members' manifest' _ _ hdata hmembers' hmanifest'
            cases hdata
            obtain rfl := Option.some.inj (hmembers.symm.trans hmembers')
            obtain rfl := Except.ok.inj (hmanifest.symm.trans hmanifest')
            exact htraceless
          · intro hall
            exact ⟨nofun, hall data members manifest hsuccess hpath rfl hmembers hmanifest⟩

/-- An installation with a backup of one object, and an empty bucket. -/
def exampleStore : World := ⟨0, fun _ => some [], ⟨[], List.Pairwise.nil⟩, []⟩

/-- Its backup. -/
def exampleBackup : BackupRecord :=
  { id := 0, backupType := .objectStorage, status := .success, filePath := "a.tar".toList, startedAt := 0 }

/-- A put that fails after it has taken effect leaves its object behind. -/
theorem not_bucketAfter_failedAfter :
    ¬ ∀ key, (bucketAfter (exampleEnv [("a".toList, [1])]) (fun _ => ⟨.failedAfter, true⟩) exampleStore
      exampleBackup).get key = exampleStore.bucket.get key := by
  rw [bucketAfter_iff]
  intro h
  have hlisted : Listed (exampleEnv [("a".toList, [1])])
      (.dict (Json.sortedDict (manifestOf (exampleEnv [("a".toList, [1])]) [("a".toList, [1])]))) "a".toList [1] :=
    (listed_manifestOf ⟨[("a".toList, [1])], List.nodup_singleton _⟩ _ _).mpr
      ⟨_, List.mem_singleton_self _, rfl, rfl⟩
  have hmanifest : readManifest (membersOf (exampleEnv [("a".toList, [1])]) [("a".toList, [1])]) =
      .ok (.dict (Json.sortedDict (manifestOf (exampleEnv [("a".toList, [1])]) [("a".toList, [1])]))) :=
    readManifest_membersOf ⟨[("a".toList, [1])], List.nodup_singleton _⟩
  have htraceless := h [] _ _ rfl nofun rfl rfl hmanifest
  have hleaves := htraceless [] _ _ [1] rfl nofun ⟨by decide, rfl, expectedHash_eq_iff.mpr hlisted⟩
  rcases hleaves.2 rfl with hsame | ⟨earlier, hearlier, -⟩
  · cases hsame
  · cases hearlier

end Backups
