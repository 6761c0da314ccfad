import Decaf.Program.Validity
import Decaf.Ranked
import Decaf.Typing.Check

namespace Decaf

/-!
# Analysing bodies

The body of a method or of a function is the variables that it declares and the expressions that it
evaluates. An analysis first judges the hierarchy, which all look-ups rely on; then it types the
bodies, functions first and then methods from the top of the hierarchy downwards.

* `Body` — what is to be analysed.
* `Analyzer` — a checker, and all the errors found so far.
* `Analyzer.analyze` — analyses bodies.
-/

/-- The body of a method, or of a function, which has no class. -/
structure Body where
  cls : Option String
  name : String
  formals : List Param
  locals : List Param
  exprs : List Expr

/-- The name of the method with its class, or of the function. -/
def Body.qualifiedName (b : Body) : String :=
  match b.cls with
  | some cls => cls ++ "." ++ b.name
  | none => b.name

/-- What an analysis finds. -/
inductive AnalysisError where
  | hierarchy (error : HierarchyError)
  | orphan (method cls : String)
  | conflict (body : String) (error : DeclError)
  | diagnostic (d : Diagnostic)
deriving DecidableEq

/-- What there is to say about it. -/
def AnalysisError.message : AnalysisError → String
  | hierarchy error => error.message
  | orphan method cls => s!"Method {method} belongs to undefined class {cls}"
  | conflict body error => s!"In {body}: {error.message}"
  | diagnostic d => d.text

/-- Why an analysis ends early: an expression of a body cannot be typed. -/
structure AnalysisFailure where
  body : String
  failure : Failure
deriving DecidableEq

/-- What there is to say about it. -/
def AnalysisFailure.message (f : AnalysisFailure) : String :=
  s!"{f.body}: {f.failure.message}"

/-- A checker, and all the errors found so far. -/
structure Analyzer where
  checker : Checker := {}
  errors : List AnalysisError := []
deriving DecidableEq

/-- Declares variables in a scope. A name that is taken keeps its first meaning, and a conflict is
    noted. -/
def declareAll (body : String) : Scope → List Param → Scope × List AnalysisError
  | scope, [] => (scope, [])
  | scope, v :: vs =>
    match scope.declare v.name v.type with
    | .ok scope => declareAll body scope vs
    | .error e =>
      let (scope, errors) := declareAll body scope vs
      (scope, .conflict body e :: errors)

namespace Body

/-- How late a body is analysed: functions come first, then methods by the depth of their class. -/
def rank (p : Program) (b : Body) : Nat :=
  match b.cls with
  | none => 0
  | some cls => p.hierarchy.depth cls + 1

/-- What the expressions of the body are typed in, and the conflicts among its variables. -/
def context (b : Body) : Context × List AnalysisError :=
  let (formals, errors₁) := declareAll b.qualifiedName { kind := .parameter } b.formals
  let (locals, errors₂) := declareAll b.qualifiedName { kind := .local_ } b.locals
  ({ cls := b.cls, scopes := [locals, formals] }, errors₁ ++ errors₂)

/-- Whether the body is a method of a class that is not declared. -/
def isOrphan (p : Program) (b : Body) : Bool :=
  b.cls.any fun cls => !p.classes.contains cls

end Body

namespace Analyzer

/-- An analyzer that has seen nothing. -/
def ofProgram (p : Option Program) : Except SetupError Analyzer :=
  match Checker.ofProgram p with
  | .error e => .error e
  | .ok checker => .ok { checker }

/-- Adds errors to those found so far. -/
def add (a : Analyzer) (errors : List AnalysisError) : Analyzer :=
  { a with errors := a.errors ++ errors }

/-- Notes an event. -/
def note (a : Analyzer) (e : Event) : Analyzer :=
  { a with checker := a.checker.record [e] }

/-- Analyses one body. Of the diagnostics, those that are new are errors of the body. -/
def analyzeBody (p : Program) (a : Analyzer) (b : Body) : Except AnalysisFailure Unit × Analyzer :=
  let a := a.note (.analyzing b.qualifiedName)
  if b.isOrphan p then (.ok (), a.add [.orphan b.name (b.cls.getD "")])
  else
    let (context, conflicts) := b.context
    let a := a.add conflicts
    let known := a.checker.findings.length
    let (result, checker) := a.checker.checkAll { program := p, context } b.exprs
    let a := { a with checker }
    match result with
    | .error failure => (.error ⟨b.qualifiedName, failure⟩, a)
    | .ok _ => (.ok (), a.add ((checker.diagnostics.drop known).map .diagnostic))

/-- Analyses bodies one after another, up to the first that fails. -/
def analyzeBodies (p : Program) : Analyzer → List Body → Except AnalysisFailure Unit × Analyzer
  | a, [] => (.ok (), a)
  | a, b :: bs =>
    match a.analyzeBody p b with
    | (.ok _, a) => a.analyzeBodies p bs
    | (.error e, a) => (.error e, a)

/-- Analyses bodies. If the hierarchy is not valid, nothing else is looked at. -/
def analyze (p : Program) (a : Analyzer) (bodies : List Body) :
    Except AnalysisFailure Unit × Analyzer :=
  let a := a.note .validating
  match p.hierarchyErrors with
  | [] => a.analyzeBodies p (sortByRank (Body.rank p) bodies)
  | errors => (.ok (), a.add (errors.map .hierarchy))

end Analyzer

end Decaf
