import Decaf.Ty

namespace Decaf

/-!
# Declarations

What a program declares: variables of all sorts, and methods with their signatures. Types in
declarations may be missing.

* `Symbol` — a global, a parameter, a local variable or a field.
* `Method.mismatch?` — how a method differs from the one that it overrides.
* `DeclError` — why a declaration is refused, with its `message`.
-/

/-! ### Variables -/

/-- The sorts of declared things. -/
inductive SymbolKind where
  | class_
  | interface
  | method
  | field
  | global
  | parameter
  | local_
  /-- A sort that has no name. -/
  | other
deriving DecidableEq, Repr

namespace SymbolKind

/-- The sort with the given number. -/
def ofCode : Int → SymbolKind
  | 0 => class_
  | 1 => interface
  | 2 => method
  | 3 => field
  | 4 => global
  | 5 => parameter
  | 6 => local_
  | _ => other

/-- What the sort is called. -/
def name : SymbolKind → String
  | class_ => "class"
  | interface => "interface"
  | method => "method"
  | field => "field"
  | global => "global"
  | parameter => "parameter"
  | local_ => "local"
  | other => "unknown"

end SymbolKind

/-- A declared variable. -/
structure Symbol where
  name : String
  kind : SymbolKind
  type : Option Ty
  /-- The class of a field. -/
  owner : Option String := none
deriving DecidableEq, Repr

/-! ### Methods -/

/-- A formal parameter, or a local variable of a body. -/
structure Param where
  name : String
  type : Option Ty
deriving DecidableEq, Repr

/-- The signature of a method or of a function. -/
structure Method where
  name : String
  params : List Param
  ret : Option Ty
  /-- The class that declares a method; a function has none. -/
  owner : Option String := none
deriving DecidableEq, Repr

/-- How a signature differs from the one it has to repeat. -/
inductive SignatureMismatch where
  | paramCount (expected given : Nat)
  /-- The first parameter of another type; parameters count from one. -/
  | paramType (index : Nat) (expected given : Option Ty)
  | returnType (expected given : Option Ty)
deriving DecidableEq, Repr

/-- What there is to say about a difference. -/
def SignatureMismatch.message : SignatureMismatch → String
  | paramCount expected given => s!"expected {expected} parameters, got {given}"
  | paramType index expected given =>
    s!"parameter #{index} type mismatch: expected '{typeText expected}', got '{typeText given}'"
  | returnType expected given =>
    s!"return type mismatch: expected '{typeText expected}', got '{typeText given}'"

/-- The first pair of parameters that differ in type, where `index` is the number of the first
    pair. -/
def paramMismatch? (index : Nat) : List Param → List Param → Option SignatureMismatch
  | p :: ps, q :: qs =>
    if p.type = q.type then paramMismatch? (index + 1) ps qs
    else some (.paramType index p.type q.type)
  | _, _ => none

/-- How `m` differs from `inherited`: in the number of parameters, in the type of one, or in the
    result. -/
def Method.mismatch? (inherited m : Method) : Option SignatureMismatch :=
  if inherited.params.length ≠ m.params.length then
    some (.paramCount inherited.params.length m.params.length)
  else
    match paramMismatch? 1 inherited.params m.params with
    | some d => some d
    | none => if inherited.ret = m.ret then none else some (.returnType inherited.ret m.ret)

/-! ### Refusals -/

/-- Why a declaration is refused. -/
inductive DeclError where
  | classRedefined (cls : String)
  | interfaceRedefined (cls : String)
  | extendsItself (cls : String)
  | unknownClass (cls : String)
  | fieldInInterface (cls field : String)
  | fieldRedefined (cls field : String)
  | fieldIsMethod (cls field : String)
  | methodRedefined (cls method : String)
  | methodIsField (cls method : String)
  | invalidOverride (cls method : String) (reason : SignatureMismatch)
  | globalIsFunction (name : String)
  | functionRedefined (name : String)
  | functionIsGlobal (name : String)
  | nameTaken (name : String)
deriving DecidableEq, Repr

/-- What there is to say about a refusal. -/
def DeclError.message : DeclError → String
  | classRedefined cls => s!"class {cls} is redefined"
  | interfaceRedefined cls => s!"interface {cls} is redefined"
  | extendsItself cls => s!"class {cls} cannot extend itself"
  | unknownClass cls => s!"internal error: class {cls} not found"
  | fieldInInterface cls field => s!"interface {cls} cannot declare field {field}"
  | fieldRedefined cls field => s!"field {field} is redefined in class {cls}"
  | fieldIsMethod cls field => s!"field {field} conflicts with method {field} in class {cls}"
  | methodRedefined cls method => s!"method {method} is redefined in class {cls}"
  | methodIsField cls method => s!"method {method} conflicts with field {method} in class {cls}"
  | invalidOverride cls method reason =>
    s!"invalid override of method '{method}' in class {cls}: {reason.message}"
  | globalIsFunction name => s!"global {name} conflicts with function {name}"
  | functionRedefined name => s!"function {name} is redefined"
  | functionIsGlobal name => s!"function {name} conflicts with global {name}"
  | nameTaken name => s!"declaration of '{name}' here conflicts with an earlier declaration"

end Decaf
