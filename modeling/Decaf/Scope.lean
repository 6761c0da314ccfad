import Decaf.Declaration
import Decaf.Dict

namespace Decaf

/-!
# Scopes

A scope binds variables of one sort. Scopes nest: inside a method there are its parameters, then the
locals of a block, then those of a block inside that. A name means the binding in the nearest scope
that has one.

* `Scope.declare` — binds a name that is still free in the scope.
* `Context` — where an expression stands: a class, perhaps, and the scopes around it.
* `Scopes` — all scopes that have been opened. A `Place` names the scopes around it by number, so
  what is declared in a scope later is seen from all the places inside it.
-/

/-- Variables of one sort. -/
structure Scope where
  kind : SymbolKind
  symbols : Dict Symbol := .empty
deriving DecidableEq

namespace Scope

/-- The variable that a name stands for in this scope. -/
def get? (s : Scope) (name : String) : Option Symbol :=
  s.symbols.get? name

/-- Binds a name. It may be bound in a scope around this one, but not in this one. -/
def declare (s : Scope) (name : String) (type : Option Ty) : Except DeclError Scope :=
  if s.symbols.contains name then .error (.nameTaken name)
  else .ok { s with symbols := s.symbols.insert name { name, kind := s.kind, type } }

end Scope

/-! ### Where an expression stands -/

/-- Where an expression stands: the class around it, if there is one, and the scopes around it,
    innermost first. -/
structure Context where
  cls : Option String := none
  scopes : List Scope := []
deriving DecidableEq

namespace Context

/-- The variable that a name stands for: the one in the innermost scope that binds it. -/
def symbol? (ctx : Context) (name : String) : Option Symbol :=
  ctx.scopes.findSome? (·.get? name)

/-- The type of the variable that a name stands for. -/
def typeOf? (ctx : Context) (name : String) : Option (Option Ty) :=
  (ctx.symbol? name).map (·.type)

end Context

/-! ### A growing tree of scopes -/

/-- The number of an opened scope. -/
abbrev ScopeId := Nat

/-- A place inside opened scopes. There is always an innermost one. -/
structure Place where
  cls : Option String
  innermost : ScopeId
  /-- The scopes around the innermost one, from the inside out. -/
  outer : List ScopeId := []
deriving DecidableEq, Repr

/-- The scopes that have been opened, by number. -/
structure Scopes where
  opened : List Scope := []
deriving DecidableEq

namespace Scopes

/-- Opens a scope with nothing around it. -/
def fresh (s : Scopes) (cls : Option String) (kind : SymbolKind) : Place × Scopes :=
  ({ cls, innermost := s.opened.length }, ⟨s.opened ++ [{ kind := kind }]⟩)

/-- Opens a scope inside a place. -/
def enter (s : Scopes) (p : Place) (kind : SymbolKind) : Place × Scopes :=
  ({ cls := p.cls, innermost := s.opened.length, outer := p.innermost :: p.outer },
    ⟨s.opened ++ [{ kind := kind }]⟩)

/-- Binds a name in the innermost scope of a place. -/
def declare (s : Scopes) (p : Place) (name : String) (type : Option Ty) : Except DeclError Scopes :=
  match s.opened[p.innermost]? with
  | none => .ok s
  | some scope =>
    match scope.declare name type with
    | .error e => .error e
    | .ok scope => .ok ⟨s.opened.set p.innermost scope⟩

/-- What is seen from a place. -/
def context (s : Scopes) (p : Place) : Context :=
  { cls := p.cls, scopes := (p.innermost :: p.outer).filterMap (s.opened[·]?) }

end Scopes

end Decaf
