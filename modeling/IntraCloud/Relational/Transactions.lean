import Mathlib.Logic.Function.Basic

/-!
# Transactions over several connections

Programs that execute statements on connections, in nested blocks as Django's `transaction.atomic` opens
them: the outermost block of a connection is a transaction, a block inside it is a savepoint. Any step may
raise, and which ones do is up to the circumstances.
-/

namespace Relational

/-- A program over the connections `κ` with statements `σ`. -/
inductive Program (κ σ : Type) where
  | skip
  /-- A step outside the databases. -/
  | compute
  | raise
  | execute (c : κ) (s : σ)
  | seq (p q : Program κ σ)
  /-- `with transaction.atomic(using=c)`. -/
  | atomic (c : κ) (p : Program κ σ)
  /-- `except Exception`, with a handler that raises the exception again. -/
  | onError (p handler : Program κ σ)
  /-- `except Exception`, with a handler that passes over it. -/
  | ignoring (p : Program κ σ)

namespace Program

/-- Programs one after the other. -/
def all {κ σ : Type} : List (Program κ σ) → Program κ σ
  | [] => .skip
  | p :: ps => .seq p (all ps)

/-- A loop. -/
def each {κ σ α : Type} (as : List α) (f : α → Program κ σ) : Program κ σ := all (as.map f)

end Program

/-- A connection to a database. -/
structure Connection (δ : Type) where
  /-- What has been committed. -/
  committed : δ
  /-- What the connection sees. -/
  working : δ
  /-- What the connection saw when it entered each open block, innermost first; a block that was entered
  when the transaction had failed already has no savepoint. -/
  blocks : List (Option δ)
  /-- A statement has failed since the last savepoint. -/
  broken : Bool

namespace Connection

variable {δ : Type}

/-- Back to the savepoint of the innermost block, or to what has been committed. -/
def rollback (conn : Connection δ) : Connection δ :=
  match conn.blocks with
  | [] => conn
  | [_] => { conn with working := conn.committed, blocks := [], broken := false }
  | none :: blocks => { conn with blocks, broken := true }
  | some saved :: blocks => { conn with working := saved, blocks, broken := false }

/-- `Atomic.__enter__`. -/
def enter (conn : Connection δ) : Connection δ :=
  { conn with blocks := (if conn.broken then none else some conn.working) :: conn.blocks }

/-- `Atomic.__exit__` of a block that was left without an exception: `COMMIT`, or the release of the
savepoint. -/
def release (fails commits : Bool) (conn : Connection δ) : Connection δ × Bool :=
  match conn.blocks with
  | [] => (conn, true)
  | [_] =>
    if commits then ({ conn with committed := conn.working, blocks := [] }, true)
    else (conn.rollback, false)
  | _ :: blocks => if fails then (conn.rollback, false) else ({ conn with blocks }, true)

/-- `Atomic.__exit__`. Where a statement has failed the block is rolled back, exception or not. -/
def leave (fails commits fine : Bool) (conn : Connection δ) : Connection δ × Bool :=
  if fine && !conn.broken then conn.release fails commits else (conn.rollback, fine)

/-- A statement; outside any block it is a transaction of its own. -/
def execute (run : δ → δ) (fails : Bool) (conn : Connection δ) : Connection δ × Bool :=
  if fails || conn.broken then ({ conn with broken := !conn.blocks.isEmpty }, false)
  else if conn.blocks.isEmpty then
    ({ conn with working := run conn.working, committed := run conn.working }, true)
  else ({ conn with working := run conn.working }, true)

/-- The connection is in no block. -/
structure Idle (conn : Connection δ) : Prop where
  blocks : conn.blocks = []
  broken : conn.broken = false
  working : conn.working = conn.committed

end Connection

/-- The connections, and the number of the next step. -/
structure World (κ δ : Type) where
  connection : κ → Connection δ
  step : Nat

/-- Which steps raise, and which `COMMIT`s go through. -/
structure Circumstances (κ : Type) where
  fails : Nat → Bool
  commits : κ → Bool

namespace World

variable {κ δ : Type} [DecidableEq κ]

def tick (w : World κ δ) : World κ δ := { w with step := w.step + 1 }

/-- The next step, on one connection. -/
def on (w : World κ δ) (c : κ) (f : Connection δ → Connection δ) : World κ δ :=
  { connection := fun d => if d = c then f (w.connection d) else w.connection d
    step := w.step + 1 }

end World

namespace Program

variable {κ σ δ : Type} [DecidableEq κ]

/-- The world after a program, and `true` where it raised nothing. -/
def eval (run : σ → δ → δ) (x : Circumstances κ) : Program κ σ → World κ δ → World κ δ × Bool
  | .skip, w => (w, true)
  | .compute, w => (w.tick, !x.fails w.step)
  | .raise, w => (w, false)
  | .execute c s, w =>
    (w.on c fun conn => (conn.execute (run s) (x.fails w.step)).1,
      ((w.connection c).execute (run s) (x.fails w.step)).2)
  | .seq p q, w =>
    let out := eval run x p w
    if out.2 then eval run x q out.1 else out
  | .atomic c p, w =>
    if x.fails w.step then (w.tick, false)
    else
      let out := eval run x p (w.on c Connection.enter)
      let leave := Connection.leave (x.fails out.1.step) (x.commits c) out.2
      (out.1.on c fun conn => (leave conn).1, (leave (out.1.connection c)).2)
  | .onError p handler, w =>
    let out := eval run x p w
    if out.2 then out else ((eval run x handler out.1).1, false)
  | .ignoring p, w => ((eval run x p w).1, true)

/-- The statements a program executes on a connection when nothing raises. -/
def statements (c : κ) : Program κ σ → List σ
  | .skip | .compute | .raise => []
  | .execute c' s => if c' = c then [s] else []
  | .seq p q => p.statements c ++ q.statements c
  | .atomic _ p | .onError p _ | .ignoring p => p.statements c

/-- The program has a use of the connection. -/
def Uses (c : κ) : Program κ σ → Prop
  | .skip | .compute | .raise => False
  | .execute c' _ => c' = c
  | .seq p q | .onError p q => p.Uses c ∨ q.Uses c
  | .atomic c' p => c' = c ∨ p.Uses c
  | .ignoring p => p.Uses c

/-- The program has no `raise` in it outside of handlers. -/
def Smooth : Program κ σ → Prop
  | .skip | .compute | .execute _ _ => True
  | .raise => False
  | .seq p q => p.Smooth ∧ q.Smooth
  | .atomic _ p | .onError p _ | .ignoring p => p.Smooth

end Program

end Relational
