/-!
Nested blocks of one transaction. The outermost block ends it: what was written is committed when
its body succeeds, and taken back when its body or the commit fails. A block within another one
leaves that to it, so what a failed inner block wrote stays until the outermost block ends.
-/

namespace Earmark

/-- A session with a database. -/
structure Session (σ : Type) where
  /-- What the database holds. -/
  stored : σ
  /-- What the session sees: the content with what it wrote since. -/
  seen : σ
  /-- How many blocks are open. -/
  depth : Nat := 0
  /-- How often a commit was attempted. -/
  commits : Nat := 0
  rollbacks : Nat := 0
  deriving Repr

namespace Session

variable {σ : Type}

def write (change : σ → σ) (s : Session σ) : Session σ := { s with seen := change s.seen }

def rollback (s : Session σ) : Session σ :=
  { s with seen := s.stored, rollbacks := s.rollbacks + 1 }

/-- Attempts a commit. A refused one changes nothing that is stored. -/
def commit (refused : Bool) (s : Session σ) : Session σ :=
  { s with stored := if refused then s.stored else s.seen, commits := s.commits + 1 }

end Session

/-- Work in a session, which keeps what was done before it failed. -/
abbrev Transaction (σ ε α : Type) := ExceptT ε (StateM (Session σ)) α

namespace Transaction

variable {σ ε α : Type}

def runFrom (s : Session σ) (t : Transaction σ ε α) : Except ε α × Session σ :=
  (ExceptT.run t).run s

/-- Ends the transaction after the outermost body: a success is committed, unless the database
refuses the commit of that number, and a failure is taken back. -/
def conclude (refusal : Nat → Option ε) (result : Except ε α) (s : Session σ) :
    Except ε α × Session σ :=
  match result with
  | .error failure => (.error failure, s.rollback)
  | .ok a =>
    match refusal s.commits with
    | some failure => (.error failure, (s.commit true).rollback)
    | none => (.ok a, s.commit false)

/-- Runs a body as a block, one level deeper than what is around it. -/
def atomic (refusal : Nat → Option ε) (body : Transaction σ ε α) : Transaction σ ε α :=
  ExceptT.mk fun s =>
    let (result, after) := body.runFrom { s with depth := s.depth + 1 }
    let (result, after) :=
      if s.depth = 0 then conclude refusal result after else (result, after)
    (result, { after with depth := s.depth })

/-- Runs a transaction for its effect; its failure is the result. -/
def attempt (t : Transaction σ ε α) : Transaction σ ε (Except ε α) :=
  ExceptT.mk fun s => let (result, after) := t.runFrom s; (.ok result, after)

@[simp] theorem runFrom_attempt (t : Transaction σ ε α) (s : Session σ) :
    t.attempt.runFrom s = (.ok (t.runFrom s).1, (t.runFrom s).2) := rfl

end Transaction

/-- What a body does: a tree of blocks. -/
inductive Work (σ ε : Type)
  | done
  | fail (failure : ε)
  /-- Goes on as what is seen says. -/
  | look (next : σ → Work σ ε)
  | write (change : σ → σ) (next : Work σ ε)
  /-- Runs a block and goes on as its result says, be it by failing as well. -/
  | block (body : Work σ ε) (next : Except ε Unit → Work σ ε)

namespace Work

variable {σ ε : Type}

/-- A block whose failure is not caught. -/
def nested (body next : Work σ ε) : Work σ ε :=
  .block body fun
    | .ok () => next
    | .error failure => .fail failure

def run (refusal : Nat → Option ε) : Work σ ε → Transaction σ ε Unit
  | .done => return ()
  | .fail failure => throw failure
  | .look next => do (next (← get).seen).run refusal
  | .write change next => do
    modify (Session.write change)
    next.run refusal
  | .block body next => do
    let result ← (Transaction.atomic refusal (body.run refusal)).attempt
    (next result).run refusal

/-- How a tree ends and what is then seen, if blocks are only steps. -/
def effect : Work σ ε → σ → Except ε Unit × σ
  | .done, content => (.ok (), content)
  | .fail failure, content => (.error failure, content)
  | .look next, content => (next content).effect content
  | .write change next, content => next.effect (change content)
  | .block body next, content =>
    let (result, after) := body.effect content
    (next result).effect after

end Work

end Earmark
