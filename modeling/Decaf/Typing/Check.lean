import Decaf.Typing.Rule

namespace Decaf

/-!
# Typing expressions

A checker types every node once. It remembers the types of the nodes it has seen, so a node that is
part of several expressions is complained about only once, and it keeps a record of all that
happened. A failure ends the work on an expression and keeps what was known before it.

* `Checker.check`, `Checker.checkAll` — the type of an expression, or of several.
* `Checker.typeOf?` — the type of a node that has been seen.
* `Checker.diagnostics` — the complaints so far.
-/

/-! ### Setting up -/

/-- What is missing at the start.  What types expressions or generates code works on a program, and
    refuses to start without one. -/
inductive SetupError where
  | checkerNeedsProgram
  /-- There is nothing to look names up in. -/
  | checkerNeedsNames
  /-- There is nothing to compare types by. -/
  | checkerNeedsFacts
  | generatorNeedsProgram
deriving DecidableEq, Repr

/-- What there is to say about it. -/
def SetupError.message : SetupError → String
  | checkerNeedsProgram => "semant: checker needs a symbol table"
  | checkerNeedsNames => "semant: checker needs a resolver"
  | checkerNeedsFacts => "semant: checker needs type facts"
  | generatorNeedsProgram => "codegen: generator needs a symbol table"

/-! ### Checkers -/

/-- What is known about the expressions that have been typed. -/
structure Checker where
  types : List (NodeId × Option Ty) := []
  log : List Event := []
deriving DecidableEq

/-- A computation that may fail and keeps what the checker knows. -/
abbrev Check := ExceptT Failure (StateM Checker)

namespace Checker

/-- A checker that has seen nothing. It looks names up in one program and compares types by one,
    which may be the same, and needs both. -/
def create (names facts : Option Program) : Except SetupError Checker :=
  if names.isNone then .error .checkerNeedsNames
  else if facts.isNone then .error .checkerNeedsFacts
  else .ok {}

/-- A checker that has seen nothing, for a single program. -/
def ofProgram (p : Option Program) : Except SetupError Checker :=
  if p.isNone then .error .checkerNeedsProgram else create p p

/-- The type of a node, if it has been seen. -/
def typeOf? (c : Checker) (id : NodeId) : Option (Option Ty) :=
  c.types.lookup id

/-- The complaints so far, in their order. -/
def findings (c : Checker) : List Finding :=
  c.log.filterMap Event.finding?

/-- The diagnostics so far, in their order. -/
def diagnostics (c : Checker) : Diagnostics :=
  c.findings.map Finding.diagnostic

/-- The checker after some events. -/
def record (c : Checker) (events : List Event) : Checker :=
  { c with log := c.log ++ events }

/-- The checker that knows the type of one more node. -/
def annotate (c : Checker) (id : NodeId) (t : Option Ty) : Checker :=
  { c with types := (id, t) :: c.types }

end Checker

/-- Types the node `id`, given a way to type its parts. A node that has been seen keeps its type,
    and its parts are not looked at again. -/
def visit (env : Env) (id : NodeId) (e : Expr) (parts : Check (List (Option Ty))) :
    Check (Option Ty) := do
  match (← get).typeOf? id with
  | some t => return t
  | none =>
    if let some flaw := e.flaw? then throw (.malformed flaw)
    let types ← parts
    let verdict := env.rule e types
    modify (·.record verdict.events)
    match verdict.result with
    | .error failure => throw failure
    | .ok t =>
      modify (·.annotate id t)
      return t

mutual

/-- Types an expression, parts first. -/
def checkExpr (env : Env) : Expr → Check (Option Ty)
  | .absent | .hollow => throw (.malformed .missingExpression)
  | .leaf id src kind => visit env id (.leaf id src kind) (pure [])
  | .compound id form op left right =>
    visit env id (.compound id form op left right) <|
      if left.isAbsent then do
        let r ← checkExpr env right
        return [r]
      else do
        let l ← checkExpr env left
        let r ← checkExpr env right
        return [l, r]
  | .index id src base subscript =>
    visit env id (.index id src base subscript) do
      let b ← checkExpr env base
      let s ← checkExpr env subscript
      return [b, s]
  | .member id (.qualified base) name =>
    visit env id (.member id (.qualified base) name) do
      let b ← checkExpr env base
      return [b]
  | .member id recv name => visit env id (.member id recv name) (pure [])
  | .call id (.qualified base) name args =>
    visit env id (.call id (.qualified base) name args) do
      let b ← checkExpr env base
      let as ← checkExprs env args
      return b :: as
  | .call id recv name args => visit env id (.call id recv name args) (checkExprs env args)
  | .new id src cls => visit env id (.new id src cls) (pure [])
  | .newArray id src size elem =>
    visit env id (.newArray id src size elem) do
      let s ← checkExpr env size
      return [s]
  | .step id op operand =>
    visit env id (.step id op operand) do
      let t ← checkExpr env operand
      return [t]
termination_by structural e => e

/-- Types expressions from first to last. -/
def checkExprs (env : Env) : List Expr → Check (List (Option Ty))
  | [] => return []
  | e :: es => do
    let t ← checkExpr env e
    let ts ← checkExprs env es
    return t :: ts
termination_by structural es => es

end

/-- **Parts first.** A node is typed once its parts are, from first to last. -/
theorem checkExpr_eq_visit (env : Env) {e : Expr} {id : NodeId} (h : e.id? = some id) :
    checkExpr env e = visit env id e (checkExprs env e.parts) := by
  cases e with
  | absent => cases h
  | hollow => cases h
  | compound i form op left right =>
    cases h
    cases hl : left.isAbsent <;> simp [checkExpr, checkExprs, Expr.parts, hl]
  | member i recv name =>
    cases h; cases recv <;> simp [checkExpr, checkExprs, Expr.parts, Receiver.parts]
  | call i recv name args =>
    cases h; cases recv <;> simp [checkExpr, checkExprs, Expr.parts, Receiver.parts]
  | _ => cases h; simp [checkExpr, checkExprs, Expr.parts]

namespace Checker

/-- The type of an expression, and what is known afterwards. -/
def check (c : Checker) (env : Env) (e : Expr) : Except Failure (Option Ty) × Checker :=
  (checkExpr env e).run c

/-- The types of several expressions, up to the first that fails, and what is known afterwards. -/
def checkAll (c : Checker) (env : Env) (es : List Expr) :
    Except Failure (List (Option Ty)) × Checker :=
  (checkExprs env es).run c

end Checker

end Decaf
