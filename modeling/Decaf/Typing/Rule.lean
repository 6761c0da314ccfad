import Decaf.Program.Lookup
import Decaf.Typing.Event
import Decaf.Typing.Flaw

namespace Decaf

/-!
# Typing rules

The rule of a node says what its type is when the types of its parts are known, and what there is to
say about it. A part that is already known to be wrong has the type `error`, and the rules are
silent about it.

* `Verdict` — the outcome of a rule.
* `Env.rule` — the rule of a node.
-/

/-- Why an expression has no type. -/
inductive Failure where
  | malformed (flaw : Flaw)
  /-- A type is needed where a declaration has none. -/
  | untyped
deriving DecidableEq, Repr

/-- What there is to say about a failure. -/
def Failure.message : Failure → String
  | malformed flaw => s!"malformed expression tree: {flaw.message}"
  | untyped => "a declaration without a type is used"

/-- What a rule says: its events, and then a type or a failure. -/
structure Verdict where
  events : List Event := []
  result : Except Failure (Option Ty)

namespace Verdict

/-- The type of a node about which there is nothing to say. -/
def ok (t : Ty) : Verdict := { result := .ok (some t) }

/-- A node about which a complaint has already been made. -/
def silent : Verdict := ok .error

/-- A complaint, after which the node is known to be wrong. -/
def blame (pos : Position) (c : Complaint) : Verdict :=
  { events := [.found ⟨pos, c⟩], result := .ok (some .error) }

/-- A declaration without a type is used. -/
def untyped : Verdict := { result := .error .untyped }

/-- A failure of the tree itself. -/
def malformed (flaw : Flaw) : Verdict := { result := .error (.malformed flaw) }

/-- The verdict with something to say before it. -/
def after (events : List Event) (v : Verdict) : Verdict :=
  { v with events := events ++ v.events }

end Verdict

/-- What an expression is typed against. -/
structure Env where
  program : Program
  context : Context := {}

/-! ### Operators -/

/-- A complaint about operands that do not fit. Without a type on the left it is about the right
    operand alone. -/
def mismatch (pos : Position) (op : String) (left : Option Ty) (right : Ty) : Verdict :=
  .blame pos <|
    match left with
    | none => .incompatibleOperand op right
    | some left => .incompatibleOperands left op right

/-- The types of the left and of the right operand. -/
def operandTypes : List (Option Ty) → Option Ty × Option Ty
  | [right] => (none, right)
  | [left, right] => (left, right)
  | _ => (none, none)

/-- The rule of an operator whose right operand has the type `right`, neither operand being
    wrong. -/
def operatorRule (p : Program) (pos : Position) (form : Form) (op : String) (left : Option Ty)
    (right : Ty) : Verdict :=
  match form, left with
  | .arithmetic, _ =>
    -- a left operand without a type counts as one that is not there
    if right.isNumeric && left.all (· = right) then .ok right else mismatch pos op left right
  | .logical, _ =>
    if right = .bool ∧ left.all (· = .bool) then .ok .bool else mismatch pos op left right
  | .equality, none => if right = .void then mismatch pos op none right else .untyped
  | _, none => .untyped
  | .relational, some l => if l.isNumeric ∧ l = right then .ok .bool else mismatch pos op left right
  | .equality, some l =>
    -- a value of type `void` cannot be compared with anything
    if l ≠ .void ∧ right ≠ .void ∧ (p.isAssignable l right ∨ p.isAssignable right l) then .ok .bool
    else mismatch pos op left right
  | .assignment, some l => if p.isAssignable right l then .ok l else mismatch pos op left right

/-- The rule of an operator. `target` says whether the left operand can be assigned to. -/
def compoundRule (p : Program) (pos : Position) (form : Form) (op : String) (target : Bool)
    (left right : Option Ty) : Verdict :=
  if left = some .error ∨ right = some .error then .silent
  else
    match form, target, left, right with
    -- a bad target is blamed even if what is assigned has no type
    | .assignment, false, some l, _ => .blame pos (.badTarget l)
    | _, _, _, some r => operatorRule p pos form op left r
    | _, _, _, none => .untyped

/-- The rule of an increment or decrement. -/
def stepRule (pos : Position) (op : String) (target : Bool) : Option Ty → Verdict
  | none => .untyped
  | some .error => .silent
  | some t =>
    if !target then .blame pos (.notAVariable op t)
    else if t.isNumeric then .ok t
    else .blame pos (.badStep t op)

/-! ### Members and elements -/

/-- The rule of an element. A wrong subscript is reported, but the type of the element is known all
    the same. -/
def indexRule (pos subscriptPos : Position) (base : Option Ty) : (subscript : Option Ty) → Verdict
  | none => .untyped
  | some s =>
    .after (if s = .error ∨ s = .int then [] else [.found ⟨subscriptPos, .badSubscript s⟩]) <|
      match base with
      | none => .untyped
      | some .error => .silent
      | some (.array elem) => .ok elem
      | some t => .blame pos (.notAnArray t)

/-- Looks a member up in the class of an expression of type `base`. -/
def inClassOf (p : Program) (pos : Position) (member : String) (base : Option Ty)
    (look : (cls : String) → Verdict) : Verdict :=
  match base with
  | none => .untyped
  | some .error => .silent
  | some (.named cls) =>
    if p.classes.contains cls then look cls else .blame pos (.undeclaredClassOf (.named cls))
  | some t => .blame pos (.notAClass t member)

/-- The rule of a field of an expression. -/
def fieldRule (p : Program) (pos : Position) (name : String) (base : Option Ty) : Verdict :=
  inClassOf p pos name base fun cls =>
    match p.field? cls name with
    | some t => { events := [.fieldResolved cls name t], result := .ok t }
    | none => .blame pos (.noSuchField (.named cls) name)

/-- The rule of a name alone: a variable of the scopes around it, else a field of the class around
    it, else a global. -/
def variableRule (env : Env) (pos : Position) (name : String) : Verdict :=
  match env.context.typeOf? name with
  | some t => { result := .ok t }
  | none =>
    match env.context.cls.bind (env.program.field? · name) with
    | some t => { events := [.fieldResolved "this" name t], result := .ok t }
    | none =>
      match env.program.global? name with
      | some t => { result := .ok t }
      | none => .blame pos (.undeclaredVariable name)

/-! ### Calls -/

/-- Compares the arguments of a call with the parameters; `index` is the number of the first
    argument. The call keeps the type `ret` even if an argument is wrong. -/
def argumentsRule (p : Program) (ret : Option Ty) :
    (index : Nat) → List Position → List (Option Ty) → List Param → Verdict
  | index, pos :: poss, arg :: args, param :: params =>
    match arg, param.type with
    | none, _ => .untyped
    -- an argument of the error type is let through, whatever the parameter is
    | some .error, _ => argumentsRule p ret (index + 1) poss args params
    | some _, none => .untyped
    | some a, some t =>
      .after (if p.isAssignable a t then [] else [.found ⟨pos, .badArgument index a t⟩])
        (argumentsRule p ret (index + 1) poss args params)
  | _, _, _, _ => { result := .ok ret }

/-- The rule of a call whose method is found. -/
def signatureRule (p : Program) (pos : Position) (m : Method) (argPos : List Position)
    (args : List (Option Ty)) : Verdict :=
  if args.length ≠ m.params.length then .blame pos (.wrongCount m.name m.params.length args.length)
  else argumentsRule p m.ret 1 argPos args m.params

/-- The one method that arrays have. -/
def arrayLength : String := "length"

/-- The rule of a call on an expression. -/
def methodRule (p : Program) (pos : Position) (name : String) (argPos : List Position)
    (base : Option Ty) (args : List (Option Ty)) : Verdict :=
  match base with
  | some (.array elem) =>
    if name ≠ arrayLength then .blame pos (.noSuchMethod (.array elem) name)
    else if args ≠ [] then .blame pos (.wrongCount name 0 args.length)
    else .ok .int
  | base =>
    inClassOf p pos name base fun cls =>
      match p.method? cls name with
      | some m =>
        .after [.callResolved cls name (m.owner.getD "")] (signatureRule p pos m argPos args)
      | none => .blame pos (.noSuchMethod (.named cls) name)

/-- The rule of a call by name alone: a method of the class around it, else a function. -/
def functionRule (env : Env) (pos : Position) (name : String) (argPos : List Position)
    (args : List (Option Ty)) : Verdict :=
  match env.context.cls.bind (env.program.method? · name) with
  | some m =>
    .after [.callResolved "this" name (m.owner.getD "")]
      (signatureRule env.program pos m argPos args)
  | none =>
    match env.program.function? name with
    | some f => signatureRule env.program pos f argPos args
    | none => .blame pos (.undeclaredFunction name)

/-! ### New objects and arrays -/

/-- The rule of a new object. Interfaces have none. -/
def newRule (p : Program) (ref : ClassRef) (name : String) : Verdict :=
  match p.class? name with
  | some c =>
    if c.isInterface then .blame ref.src.pos (.undeclaredClass name) else .ok (.named name)
  | none => .blame ref.src.pos (.undeclaredClass name)

/-- What a written type means, with what there is to say about it. A class that is not declared
    still has a type. -/
def resolve (p : Program) : TypeRef → List Event × Except Flaw Ty
  | .missing => ([], .error .missingType)
  | .primitive src =>
    match Ty.ofKeyword? src.literal with
    | some t => ([], .ok t)
    | none => ([], .error (.unknownPrimitive src.literal))
  | .named ref =>
    match ref.name with
    | none => ([], .error .namelessType)
    | some name =>
      (if p.classes.contains name then [] else [.found ⟨ref.src.pos, .undeclaredClass name⟩],
        .ok (.named name))
  | .array _ elem =>
    match resolve p elem with
    | (events, .error flaw) => (events, .error flaw)
    | (events, .ok t) =>
      (events ++ if t = .void then [.found ⟨elem.pos, .badElement t⟩] else [], .ok (.array t))

/-- The rule of a new array. It has a type even if its size or its element type is wrong. -/
def newArrayRule (p : Program) (src : Origin) (sizePos : Position) (elem : TypeRef) :
    (size : Option Ty) → Verdict
  | none => .untyped
  | some s =>
    .after (if s = .error ∨ s = .int then [] else [.found ⟨sizePos, .badSize s⟩]) <|
      match resolve p (.array src elem) with
      | (events, .ok t) => { events, result := .ok (some t) }
      | (events, .error flaw) => { events, result := .error (.malformed flaw) }

/-! ### All nodes -/

/-- The rule of a node without parts. -/
def leafRule (ctx : Context) (pos : Position) : Leaf → Verdict
  | .int | .readInteger => .ok .int
  | .double => .ok .double
  | .bool => .ok .bool
  | .string | .readLine => .ok .string
  | .null => .ok .null
  | .empty => .ok .void
  | .this_ =>
    match ctx.cls with
    | some cls => .ok (.named cls)
    | none => .blame pos .thisOutsideClass

/-- The rule of a node, given the types of its parts. -/
def Env.rule (env : Env) (e : Expr) (types : List (Option Ty)) : Verdict :=
  match e with
  | .leaf _ src kind => leafRule env.context src.pos kind
  | .compound _ form (some op) left _ =>
    let (lt, rt) := operandTypes types
    compoundRule env.program e.pos form op.literal left.isLValue lt rt
  | .index _ src _ subscript =>
    match types with
    | [bt, st] => indexRule src.pos subscript.pos bt st
    | _ => .untyped
  | .member _ (.qualified _) (some name) =>
    fieldRule env.program name.src.pos name.name types.head?.join
  | .member _ _ (some name) => variableRule env name.src.pos name.name
  | .call _ (.qualified _) (some name) args =>
    methodRule env.program name.src.pos name.name (args.map Expr.pos) types.head?.join types.tail
  | .call _ _ (some name) args => functionRule env name.src.pos name.name (args.map Expr.pos) types
  | .new _ _ (some ref) => newRule env.program ref (ref.name.getD "")
  | .newArray _ src size elem => newArrayRule env.program src size.pos elem types.head?.join
  | .step _ (some op) operand => stepRule e.pos op.literal operand.isLValue types.head?.join
  | e => .malformed (e.flaw?.getD .missingExpression)

end Decaf
