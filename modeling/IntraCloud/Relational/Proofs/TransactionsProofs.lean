import IntraCloud.Relational.Transactions

/-!
# What a transaction leaves

Inside a block nothing is committed. Of a transaction on one connection around a transaction on another,
the inner one commits first: where the outer `COMMIT` fails after that, what the inner one wrote stays.
-/

namespace Relational

variable {κ σ δ : Type}

/-! ## One connection -/

namespace Connection

variable {conn : Connection δ}

/-- A statement in a block leaves what is committed and the blocks. -/
theorem kept_execute (run : δ → δ) (fails : Bool) (hopen : conn.blocks ≠ []) :
    (conn.execute run fails).1.committed = conn.committed ∧
      (conn.execute run fails).1.blocks = conn.blocks := by
  unfold execute
  split
  · exact ⟨rfl, rfl⟩
  · split
    · rename_i hempty
      exact absurd (List.isEmpty_iff.mp hempty) hopen
    · exact ⟨rfl, rfl⟩

theorem rollback_inner {saved saved' : Option δ} {blocks : List (Option δ)}
    (h : conn.blocks = saved :: saved' :: blocks) :
    conn.rollback.committed = conn.committed ∧ conn.rollback.blocks = saved' :: blocks := by
  unfold rollback
  cases saved <;> simp only [h] <;> exact ⟨trivial, trivial⟩

theorem rollback_outer {saved : Option δ} (h : conn.blocks = [saved]) :
    conn.rollback.committed = conn.committed := by
  unfold rollback
  cases saved <;> simp only [h]

/-- Leaving a block inside another one commits nothing. -/
theorem kept_leave {saved saved' : Option δ} {blocks : List (Option δ)} (fails commits fine : Bool)
    (h : conn.blocks = saved :: saved' :: blocks) :
    (conn.leave fails commits fine).1.committed = conn.committed ∧
      (conn.leave fails commits fine).1.blocks = saved' :: blocks := by
  have hrollback := rollback_inner h
  unfold leave release
  split
  · simp only [h]
    split
    · exact hrollback
    · exact ⟨rfl, rfl⟩
  · exact hrollback

/-- Leaving the outermost block commits it or commits nothing; in the latter case it raises where the
`COMMIT` failed. -/
theorem leave_outer {saved : Option δ} (fails commits fine : Bool) (h : conn.blocks = [saved]) :
    ((conn.leave fails commits fine).1.committed = conn.working ∧ commits = true ∧ fine = true ∧
        (conn.leave fails commits fine).2 = true) ∨
      ((conn.leave fails commits fine).1.committed = conn.committed ∧
        ((conn.leave fails commits fine).2 = false → fine = true → commits = false)) := by
  have hrollback := rollback_outer h
  unfold leave release
  split
  · rename_i hfine
    simp only [Bool.and_eq_true] at hfine
    simp only [h]
    split
    · rename_i hcommits
      exact .inl ⟨rfl, hcommits, hfine.1, rfl⟩
    · rename_i hcommits
      exact .inr ⟨hrollback, fun _ _ => Bool.eq_false_iff.mpr hcommits⟩
  · exact .inr ⟨hrollback, fun hout hfine => absurd (hout.symm.trans hfine) Bool.false_ne_true⟩

/-- Where nothing has failed, the outermost block is left as its `COMMIT` says. -/
theorem leave_outer_fine {saved : Option δ} (fails commits : Bool) (h : conn.blocks = [saved])
    (hbroken : conn.broken = false) :
    (conn.leave fails commits true).2 = commits ∧
      (conn.leave fails commits true).1.committed =
        if commits then conn.working else conn.committed := by
  have hrollback := rollback_outer h
  unfold leave release
  simp only [hbroken, h, Bool.not_false, Bool.and_self, if_true]
  cases commits with
  | true => exact ⟨rfl, rfl⟩
  | false => exact ⟨rfl, hrollback⟩

end Connection

/-! ## Programs -/

variable [DecidableEq κ]

namespace World

variable {w : World κ δ} {c d : κ}

@[simp] theorem connection_on (f : Connection δ → Connection δ) :
    (w.on c f).connection c = f (w.connection c) := if_pos rfl

theorem connection_on_ne (f : Connection δ → Connection δ) (h : c ≠ d) :
    (w.on d f).connection c = w.connection c := if_neg h

end World

namespace Program

variable {r : σ → δ → δ} {x : Circumstances κ} {c d : κ}

/-- In a block nothing is committed, and all blocks that are opened are left. -/
theorem kept_eval (p : Program κ σ) {w : World κ δ} (hopen : (w.connection c).blocks ≠ []) :
    ((p.eval r x w).1.connection c).committed = (w.connection c).committed ∧
      ((p.eval r x w).1.connection c).blocks = (w.connection c).blocks := by
  induction p generalizing w with
  | skip | compute | raise => exact ⟨rfl, rfl⟩
  | execute d s =>
    by_cases hcd : c = d
    · subst hcd
      rw [eval, World.connection_on]
      exact Connection.kept_execute (r s) _ hopen
    · rw [eval, World.connection_on_ne _ hcd]
      exact ⟨rfl, rfl⟩
  | seq p q ihp ihq =>
    have hp := ihp hopen
    simp only [eval]
    split
    · have hq := ihq (w := (p.eval r x w).1) (by rw [hp.2]; exact hopen)
      exact ⟨hq.1.trans hp.1, hq.2.trans hp.2⟩
    · exact hp
  | atomic d p ih =>
    simp only [eval]
    split
    · exact ⟨rfl, rfl⟩
    · by_cases hcd : c = d
      · subst hcd
        obtain ⟨saved, blocks, hblocks⟩ := List.exists_cons_of_ne_nil hopen
        have hinner := ih (w := w.on c Connection.enter)
          (by rw [World.connection_on]; exact List.cons_ne_nil _ _)
        rw [World.connection_on, Connection.enter, hblocks] at hinner
        rw [World.connection_on]
        have hleave := Connection.kept_leave (x.fails (p.eval r x (w.on c Connection.enter)).1.step)
          (x.commits c) (p.eval r x (w.on c Connection.enter)).2 hinner.2
        exact ⟨hleave.1.trans hinner.1, hleave.2.trans hblocks.symm⟩
      · have henter := World.connection_on_ne (w := w) Connection.enter hcd
        have hinner := ih (w := w.on d Connection.enter) (by rw [henter]; exact hopen)
        rw [World.connection_on_ne _ hcd]
        rw [henter] at hinner
        exact hinner
  | onError p handler ihp ihh =>
    have hp := ihp hopen
    simp only [eval]
    split
    · exact hp
    · have hh := ihh (w := (p.eval r x w).1) (by rw [hp.2]; exact hopen)
      exact ⟨hh.1.trans hp.1, hh.2.trans hp.2⟩
  | ignoring p ih => exact ih hopen

/-- A connection that is not used stays as it is. -/
theorem connection_eval_of_not_uses (p : Program κ σ) (w : World κ δ) (h : ¬ p.Uses c) :
    (p.eval r x w).1.connection c = w.connection c := by
  induction p generalizing w with
  | skip | compute | raise => rfl
  | execute d s =>
    have hcd : c ≠ d := fun hcd => h hcd.symm
    rw [eval, World.connection_on_ne _ hcd]
  | seq p q ihp ihq =>
    simp only [eval]
    split
    · rw [ihq _ fun hq => h (.inr hq), ihp _ fun hp => h (.inl hp)]
    · exact ihp _ fun hp => h (.inl hp)
  | atomic d p ih =>
    have hcd : c ≠ d := fun hcd => h (.inl hcd.symm)
    simp only [eval]
    split
    · rfl
    · rw [World.connection_on_ne _ hcd, ih _ fun hp => h (.inr hp), World.connection_on_ne _ hcd]
  | onError p handler ihp ihh =>
    simp only [eval]
    split
    · exact ihp _ fun hp => h (.inl hp)
    · rw [ihh _ fun hh => h (.inr hh), ihp _ fun hp => h (.inl hp)]
  | ignoring p ih => exact ih _ h

/-- Every connection is in a block, and nothing has failed in it. -/
def Open (w : World κ δ) : Prop :=
  ∀ c, (w.connection c).blocks ≠ [] ∧ (w.connection c).broken = false

/-- Where nothing fails, a program in open blocks raises nothing and executes all of its statements. -/
theorem eval_of_smooth (p : Program κ σ) (hsmooth : p.Smooth) (hfails : ∀ n, x.fails n = false)
    {w : World κ δ} (hopen : Open w) :
    (p.eval r x w).2 = true ∧ Open (p.eval r x w).1 ∧ ∀ c,
      ((p.eval r x w).1.connection c).working =
        (p.statements c).foldl (fun data s => r s data) (w.connection c).working := by
  induction p generalizing w with
  | skip => exact ⟨rfl, hopen, fun _ => rfl⟩
  | compute =>
    have hok : (!x.fails w.step) = true := by rw [hfails]; rfl
    exact ⟨hok, hopen, fun _ => rfl⟩
  | raise => exact hsmooth.elim
  | execute d s =>
    have hrun : (w.connection d).execute (r s) false =
        ({ w.connection d with working := r s (w.connection d).working }, true) := by
      have hempty : ¬ (w.connection d).blocks.isEmpty = true :=
        fun hempty => (hopen d).1 (List.isEmpty_iff.mp hempty)
      have hfine : ¬ (false || (w.connection d).broken) = true := by
        rw [(hopen d).2]
        decide
      rw [Connection.execute, if_neg hfine, if_neg hempty]
    simp only [eval, hfails, hrun, statements]
    refine ⟨trivial, fun c => ?_, fun c => ?_⟩
    · by_cases hcd : c = d
      · subst hcd
        rw [World.connection_on, hrun]
        exact hopen c
      · rw [World.connection_on_ne _ hcd]
        exact hopen c
    · by_cases hcd : c = d
      · subst hcd
        rw [World.connection_on, hrun, if_pos rfl]
        rfl
      · rw [World.connection_on_ne _ hcd, if_neg fun hdc => hcd hdc.symm]
        rfl
  | seq p q ihp ihq =>
    obtain ⟨hpok, hpopen, hpwork⟩ := ihp hsmooth.1 hopen
    obtain ⟨hqok, hqopen, hqwork⟩ := ihq hsmooth.2 hpopen
    simp only [eval, hpok, if_true]
    refine ⟨hqok, hqopen, fun c => ?_⟩
    rw [hqwork, hpwork, statements, List.foldl_append]
  | atomic d p ih =>
    have henter : Open (w.on d Connection.enter) := by
      intro c
      by_cases hcd : c = d
      · subst hcd
        rw [World.connection_on]
        exact ⟨List.cons_ne_nil _ _, (hopen c).2⟩
      · rw [World.connection_on_ne _ hcd]
        exact hopen c
    obtain ⟨hok, hinner, hwork⟩ := ih hsmooth henter
    obtain ⟨saved, blocks, hblocks⟩ := List.exists_cons_of_ne_nil (hopen d).1
    have hkept := (kept_eval (r := r) (x := x) p (henter d).1).2
    rw [World.connection_on, Connection.enter, hblocks] at hkept
    have hleave : ((p.eval r x (w.on d Connection.enter)).1.connection d).leave false (x.commits d) true =
        ({ (p.eval r x (w.on d Connection.enter)).1.connection d with blocks := saved :: blocks },
          true) := by
      rw [Connection.leave, (hinner d).2]
      simp only [Bool.not_false, Bool.and_self, if_true, Connection.release, hkept, Bool.false_eq_true,
        if_false]
    simp only [eval, hfails, Bool.false_eq_true, if_false, hok, hleave]
    refine ⟨trivial, fun c => ?_, fun c => ?_⟩
    · by_cases hcd : c = d
      · subst hcd
        rw [World.connection_on, hleave]
        exact ⟨List.cons_ne_nil _ _, (hinner c).2⟩
      · rw [World.connection_on_ne _ hcd]
        exact hinner c
    · by_cases hcd : c = d
      · subst hcd
        rw [World.connection_on, hleave]
        have hc := hwork c
        rw [World.connection_on] at hc
        exact hc
      · have hc := hwork c
        rw [World.connection_on_ne _ hcd] at hc ⊢
        exact hc
  | onError p handler ihp _ =>
    obtain ⟨hok, hopen', hwork⟩ := ihp hsmooth hopen
    simp only [eval, hok, if_true]
    exact ⟨trivial, hopen', hwork⟩
  | ignoring p ih =>
    obtain ⟨-, hopen', hwork⟩ := ih hsmooth hopen
    exact ⟨rfl, hopen', hwork⟩

/-! ## Sequences -/

omit [DecidableEq κ] in
theorem smooth_all {ps : List (Program κ σ)} (h : ∀ p ∈ ps, p.Smooth) : (all ps).Smooth := by
  induction ps with
  | nil => trivial
  | cons p ps ih =>
    obtain ⟨hp, hps⟩ := List.forall_mem_cons.mp h
    exact ⟨hp, ih hps⟩

omit [DecidableEq κ] in
theorem smooth_each {α : Type} {as : List α} {f : α → Program κ σ} (h : ∀ a ∈ as, (f a).Smooth) :
    (each as f).Smooth := smooth_all (List.forall_mem_map.mpr h)

omit [DecidableEq κ] in
theorem uses_all {ps : List (Program κ σ)} : (all ps).Uses c ↔ ∃ p ∈ ps, p.Uses c := by
  induction ps with
  | nil => exact ⟨False.elim, fun ⟨_, hp, _⟩ => absurd hp List.not_mem_nil⟩
  | cons p ps ih =>
    rw [all, Uses, ih]
    simp only [List.mem_cons, exists_eq_or_imp]

omit [DecidableEq κ] in
theorem uses_each {α : Type} {as : List α} {f : α → Program κ σ} :
    (each as f).Uses c ↔ ∃ a ∈ as, (f a).Uses c := by
  rw [each, uses_all]
  simp only [List.mem_map, exists_exists_and_eq_and]

theorem statements_all (ps : List (Program κ σ)) :
    (all ps).statements c = ps.flatMap (·.statements c) := by
  induction ps with
  | nil => rfl
  | cons p ps ih => rw [all, statements, ih, List.flatMap_cons]

theorem statements_each {α : Type} (as : List α) (f : α → Program κ σ) :
    (each as f).statements c = as.flatMap fun a => (f a).statements c := by
  rw [each, statements_all, List.flatMap_map]

/-- One program of a sequence that always raises is enough. -/
theorem eval_all_of_raises {ps : List (Program κ σ)} {p : Program κ σ} (hmem : p ∈ ps)
    (hraises : ∀ w : World κ δ, (p.eval r x w).2 = false) (w : World κ δ) :
    ((all ps).eval r x w).2 = false := by
  induction ps generalizing w with
  | nil => exact absurd hmem List.not_mem_nil
  | cons q ps ih =>
    simp only [all, eval]
    cases hq : (q.eval r x w).2 with
    | false =>
      rw [if_neg Bool.false_ne_true]
      exact hq
    | true =>
      rw [if_pos rfl]
      rcases List.mem_cons.mp hmem with rfl | hmem
      · exact absurd ((hraises w).symm.trans hq) Bool.false_ne_true
      · exact ih hmem _

theorem eval_each_of_raises {α : Type} {as : List α} {f : α → Program κ σ} {a : α} (hmem : a ∈ as)
    (hraises : ∀ w : World κ δ, ((f a).eval r x w).2 = false) (w : World κ δ) :
    ((each as f).eval r x w).2 = false :=
  eval_all_of_raises (List.mem_map_of_mem hmem) hraises w

/-! ## A transaction inside a transaction -/

section Nested

variable {w : World κ δ} {p : Program κ σ}

theorem eval_atomic (hbegin : x.fails w.step = false) :
    (Program.atomic d p).eval r x w =
      ((p.eval r x (w.on d Connection.enter)).1.on d fun conn =>
          (conn.leave (x.fails (p.eval r x (w.on d Connection.enter)).1.step) (x.commits d)
            (p.eval r x (w.on d Connection.enter)).2).1,
        (((p.eval r x (w.on d Connection.enter)).1.connection d).leave
          (x.fails (p.eval r x (w.on d Connection.enter)).1.step) (x.commits d)
            (p.eval r x (w.on d Connection.enter)).2).2) := by
  simp only [eval, hbegin, Bool.false_eq_true, if_false]

/-- A transaction is committed as its body left it, or not at all. -/
theorem transaction_cases (hd : (w.connection d).blocks = []) :
    ((((Program.atomic d p).eval r x w).1.connection d).committed =
        ((p.eval r x (w.on d Connection.enter)).1.connection d).working ∧
      x.commits d = true ∧ (p.eval r x (w.on d Connection.enter)).2 = true ∧
      ((Program.atomic d p).eval r x w).2 = true) ∨
    (((Program.atomic d p).eval r x w).1.connection d).committed = (w.connection d).committed := by
  have hopen : ((w.on d Connection.enter).connection d).blocks ≠ [] := by
    rw [World.connection_on]
    exact List.cons_ne_nil _ _
  have hkept := kept_eval (r := r) (x := x) p hopen
  rw [World.connection_on, Connection.enter, hd] at hkept
  simp only [eval]
  split
  · exact .inr rfl
  · rw [World.connection_on]
    rcases Connection.leave_outer (x.fails (p.eval r x (w.on d Connection.enter)).1.step) (x.commits d)
      (p.eval r x (w.on d Connection.enter)).2 hkept.2 with ⟨hwork, hcommits, hbody, hok⟩ | ⟨hsame, -⟩
    · exact .inl ⟨hwork, hcommits, hbody, hok⟩
    · exact .inr (hsame.trans hkept.1)

/-- Where the whole has raised, both connections are as they were committed, unless the inner `COMMIT`
went through and the outer one failed. -/
theorem nested_cases (hcd : c ≠ d) (hc : (w.connection c).blocks = []) (hd : (w.connection d).blocks = [])
    (hraised : ((Program.atomic c (.atomic d p)).eval r x w).2 = false) :
    (((Program.atomic c (.atomic d p)).eval r x w).1.connection c).committed =
        (w.connection c).committed ∧
      ((((Program.atomic c (.atomic d p)).eval r x w).1.connection d).committed =
          (w.connection d).committed ∨
        x.commits d = true ∧ x.commits c = false ∧
          (p.eval r x ((w.on c Connection.enter).on d Connection.enter)).2 = true ∧
          (((Program.atomic c (.atomic d p)).eval r x w).1.connection d).committed =
            ((p.eval r x ((w.on c Connection.enter).on d Connection.enter)).1.connection d).working) := by
  constructor
  · rcases transaction_cases (r := r) (x := x) (p := .atomic d p) hc with ⟨-, -, -, hok⟩ | hsame
    · exact absurd (hraised.symm.trans hok) Bool.false_ne_true
    · exact hsame
  · have hdc : d ≠ c := hcd.symm
    have hd' : ((w.on c Connection.enter).connection d).blocks = [] := by
      rw [World.connection_on_ne _ hdc]
      exact hd
    have hopen : ((w.on c Connection.enter).connection c).blocks ≠ [] := by
      rw [World.connection_on]
      exact List.cons_ne_nil _ _
    have hkept := (kept_eval (r := r) (x := x) (.atomic d p) hopen).2
    rw [World.connection_on, Connection.enter, hc] at hkept
    have hinner := transaction_cases (r := r) (x := x) (p := p) hd'
    rw [World.connection_on_ne _ hdc] at hinner
    cases hbegin : x.fails w.step with
    | true =>
      rw [eval, if_pos hbegin]
      exact .inl rfl
    | false =>
      rw [eval_atomic hbegin] at hraised ⊢
      rw [World.connection_on_ne _ hdc]
      rcases hinner with ⟨hwork, hcommits, hbody, hok⟩ | hsame
      · refine .inr ⟨hcommits, ?_, hbody, hwork⟩
        rw [hok] at hraised
        rcases Connection.leave_outer _ (x.commits c) true hkept with ⟨-, -, -, hfine⟩ | ⟨-, hfailed⟩
        · exact absurd (hraised.symm.trans hfine) Bool.false_ne_true
        · exact hfailed hraised rfl
      · exact .inl hsame

/-- Where no step fails and the inner `COMMIT` goes through, what the body wrote on the inner connection
is there, and the whole raises exactly where the outer `COMMIT` fails. -/
theorem nested_of_smooth (hcd : c ≠ d) (hall : ∀ k, k = c ∨ k = d) (hc : (w.connection c).Idle)
    (hd : (w.connection d).Idle) (hsmooth : p.Smooth) (hfails : ∀ n, x.fails n = false)
    (hcommits : x.commits d = true) :
    ((Program.atomic c (.atomic d p)).eval r x w).2 = x.commits c ∧
      (((Program.atomic c (.atomic d p)).eval r x w).1.connection d).committed =
        (p.statements d).foldl (fun data s => r s data) (w.connection d).committed := by
  have hdc : d ≠ c := hcd.symm
  have hopen : Open ((w.on c Connection.enter).on d Connection.enter) := by
    intro k
    rcases hall k with rfl | rfl
    · rw [World.connection_on_ne _ hcd, World.connection_on]
      exact ⟨List.cons_ne_nil _ _, hc.broken⟩
    · rw [World.connection_on, World.connection_on_ne _ hdc]
      exact ⟨List.cons_ne_nil _ _, hd.broken⟩
  obtain ⟨hok, hopen', hwork⟩ := eval_of_smooth (r := r) p hsmooth hfails hopen
  have hkeptc := (kept_eval (r := r) (x := x) p (hopen c).1).2
  have hkeptd := (kept_eval (r := r) (x := x) p (hopen d).1).2
  rw [World.connection_on_ne _ hcd, World.connection_on, Connection.enter, hc.blocks] at hkeptc
  rw [World.connection_on, World.connection_on_ne _ hdc, Connection.enter, hd.blocks] at hkeptd
  have hworkd := hwork d
  have henter : (w.connection d).enter.working = (w.connection d).committed := hd.working
  rw [World.connection_on, World.connection_on_ne _ hdc, henter] at hworkd
  have hleaved := Connection.leave_outer_fine false (x.commits d) hkeptd (hopen' d).2
  have hleavec := Connection.leave_outer_fine false (x.commits c) hkeptc (hopen' c).2
  simp only [eval, hfails, Bool.false_eq_true, if_false, hok]
  rw [hleaved.1, hcommits, World.connection_on_ne _ hcd, World.connection_on_ne _ hdc,
    World.connection_on]
  rw [hcommits, if_pos rfl] at hleaved
  exact ⟨hleavec.1, hleaved.2.trans hworkd⟩

end Nested

end Program

end Relational
