import Decaf.Typing.Check
import Mathlib.Data.List.Forall2

namespace Decaf

/-!
# The type system

When an expression has a type, said by rules of inference and without any order of work: there are
no complaints, no error type, no memory of nodes and no positions.  The judgement is the least
relation that the rules allow.

* `Program.Assignable` — when a value of one type may stand where another is expected.
* `TypeRef.Denotes` — the type that a written type means.
* `Typed` — the type of an expression.
* `Env.Declares` — a property of the types of all declarations.
* `Env.Clean` — all declarations have types, and none of them mentions the error type.
-/

/-! ### Types that fit -/

/-- `sub` is `super`, or a class below it, or implements it, itself or through a class above it. -/
def Program.Subtype (p : Program) (sub super : String) : Prop :=
  ∃ a ∈ p.chain sub, a = super ∨ ∃ c, p.class? a = some c ∧ super ∈ c.interfaces

/-- A value of the first type may stand where the second is expected. -/
inductive Program.Assignable (p : Program) : Ty → Ty → Prop
  | refl {t : Ty} : Assignable p t t
  /-- Null stands for a value of any class and for any array. -/
  | null {t : Ty} (ht : t.isReference) : Assignable p .null t
  | subtype {sub super : String} (h : p.Subtype sub super) :
      Assignable p (.named sub) (.named super)

/-- Arguments of the given types fit the parameters: there are as many of them, and each may stand
    for its parameter. -/
def Method.Takes (p : Program) (m : Method) (args : List Ty) : Prop :=
  List.Forall₂ (fun a (q : Param) => ∃ t, q.type = some t ∧ p.Assignable a t) args m.params

/-! ### Written types -/

/-- The type that a written type means.  Classes have to be declared, and `void` has no arrays. -/
inductive TypeRef.Denotes (p : Program) : TypeRef → Ty → Prop
  | primitive {src : Origin} {t : Ty} (h : Ty.ofKeyword? src.literal = some t) :
      Denotes p (.primitive src) t
  | named {ref : ClassRef} {name : String} (hname : ref.name = some name)
      (hdecl : p.classes.contains name) : Denotes p (.named ref) (.named name)
  | array {src : Origin} {elem : TypeRef} {t : Ty} (helem : Denotes p elem t) (hvoid : t ≠ .void) :
      Denotes p (.array src elem) (.array t)

/-! ### Expressions -/

/-- The type of an expression without parts, wherever it stands. -/
def Leaf.fixedType? : Leaf → Option Ty
  | int | readInteger => some .int
  | double => some .double
  | bool => some .bool
  | string | readLine => some .string
  | null => some .null
  | empty => some .void
  | this_ => none

/-- The type of an expression in its surroundings. -/
inductive Typed (env : Env) : Expr → Ty → Prop
  | fixed {id : NodeId} {src : Origin} {kind : Leaf} {t : Ty} (h : kind.fixedType? = some t) :
      Typed env (.leaf id src kind) t
  | this_ {id : NodeId} {src : Origin} {cls : String} (h : env.context.cls = some cls) :
      Typed env (.leaf id src .this_) (.named cls)
  | minus {id : NodeId} {op : Token} {right : Expr} {t : Ty} (hop : op.kind = .mark .minus)
      (hnum : t.isNumeric) (hr : Typed env right t) :
      Typed env (.compound id .arithmetic (some op) .absent right) t
  | arithmetic {id : NodeId} {op : Token} {left right : Expr} {t : Ty}
      (hop : op.kind ∈ [.mark .plus, .mark .minus, .mark .star, .mark .slash, .mark .percent])
      (hnum : t.isNumeric) (hl : Typed env left t) (hr : Typed env right t) :
      Typed env (.compound id .arithmetic (some op) left right) t
  | relational {id : NodeId} {op : Token} {left right : Expr} {t : Ty}
      (hop : op.kind ∈ [.mark .lt, .mark .le, .mark .gt, .mark .ge]) (hnum : t.isNumeric)
      (hl : Typed env left t) (hr : Typed env right t) :
      Typed env (.compound id .relational (some op) left right) .bool
  | equality {id : NodeId} {op : Token} {left right : Expr} {l r : Ty}
      (hop : op.kind ∈ [.mark .eq, .mark .ne]) (hl : Typed env left l) (hr : Typed env right r)
      (hlv : l ≠ .void) (hrv : r ≠ .void)
      (hfit : env.program.Assignable l r ∨ env.program.Assignable r l) :
      Typed env (.compound id .equality (some op) left right) .bool
  | not {id : NodeId} {op : Token} {right : Expr} (hop : op.kind = .mark .not)
      (hr : Typed env right .bool) : Typed env (.compound id .logical (some op) .absent right) .bool
  | logical {id : NodeId} {op : Token} {left right : Expr} (hop : op.kind ∈ [.mark .and, .mark .or])
      (hl : Typed env left .bool) (hr : Typed env right .bool) :
      Typed env (.compound id .logical (some op) left right) .bool
  | assignment {id : NodeId} {op : Token} {left right : Expr} {l r : Ty}
      (hop : op.kind = .mark .assign) (htarget : left.isLValue) (hl : Typed env left l)
      (hr : Typed env right r) (hfit : env.program.Assignable r l) :
      Typed env (.compound id .assignment (some op) left right) l
  | index {id : NodeId} {src : Origin} {base subscript : Expr} {t : Ty}
      (hbase : Typed env base (.array t)) (hsub : Typed env subscript .int) :
      Typed env (.index id src base subscript) t
  | field {id : NodeId} {base : Expr} {name : Ident} {cls : String} {t : Ty}
      (hbase : Typed env base (.named cls)) (hdecl : env.program.classes.contains cls)
      (hfield : env.program.field? cls name.name = some (some t)) :
      Typed env (.member id (.qualified base) (some name)) t
  /-- A variable of the scopes around the expression comes first. -/
  | localVariable {id : NodeId} {name : Ident} {t : Ty}
      (hvar : env.context.typeOf? name.name = some (some t)) :
      Typed env (.member id .unqualified (some name)) t
  /-- Then comes a field of the class around it. -/
  | ownField {id : NodeId} {name : Ident} {cls : String} {t : Ty}
      (hvar : env.context.typeOf? name.name = none) (hcls : env.context.cls = some cls)
      (hfield : env.program.field? cls name.name = some (some t)) :
      Typed env (.member id .unqualified (some name)) t
  /-- A global variable comes last. -/
  | globalVariable {id : NodeId} {name : Ident} {t : Ty}
      (hvar : env.context.typeOf? name.name = none)
      (hfield : ∀ cls, env.context.cls = some cls → env.program.field? cls name.name = none)
      (hglobal : env.program.global? name.name = some (some t)) :
      Typed env (.member id .unqualified (some name)) t
  | length {id : NodeId} {base : Expr} {name : Ident} {t : Ty} (hname : name.name = "length")
      (hbase : Typed env base (.array t)) :
      Typed env (.call id (.qualified base) (some name) []) .int
  | method {id : NodeId} {base : Expr} {name : Ident} {args : List Expr} {types : List Ty}
      {cls : String} {m : Method} {t : Ty} (hbase : Typed env base (.named cls))
      (hdecl : env.program.classes.contains cls)
      (hmethod : env.program.method? cls name.name = some m) (hlen : args.length = types.length)
      (hargs : ∀ x ∈ args.zip types, Typed env x.1 x.2) (htakes : m.Takes env.program types)
      (hret : m.ret = some t) : Typed env (.call id (.qualified base) (some name) args) t
  /-- A method of the class around a call comes first. -/
  | ownMethod {id : NodeId} {name : Ident} {args : List Expr} {types : List Ty} {cls : String}
      {m : Method} {t : Ty} (hcls : env.context.cls = some cls)
      (hmethod : env.program.method? cls name.name = some m) (hlen : args.length = types.length)
      (hargs : ∀ x ∈ args.zip types, Typed env x.1 x.2) (htakes : m.Takes env.program types)
      (hret : m.ret = some t) : Typed env (.call id .unqualified (some name) args) t
  /-- A function comes last. -/
  | function {id : NodeId} {name : Ident} {args : List Expr} {types : List Ty} {f : Method} {t : Ty}
      (hmethod : ∀ cls, env.context.cls = some cls → env.program.method? cls name.name = none)
      (hfun : env.program.function? name.name = some f) (hlen : args.length = types.length)
      (hargs : ∀ x ∈ args.zip types, Typed env x.1 x.2) (htakes : f.Takes env.program types)
      (hret : f.ret = some t) : Typed env (.call id .unqualified (some name) args) t
  | new {id : NodeId} {src : Origin} {ref : ClassRef} {name : String} {c : ClassDecl}
      (hname : ref.name = some name) (hcls : env.program.class? name = some c)
      (hobjects : c.isInterface = false) : Typed env (.new id src (some ref)) (.named name)
  | newArray {id : NodeId} {src : Origin} {size : Expr} {elem : TypeRef} {t : Ty}
      (hsize : Typed env size .int) (helem : elem.Denotes env.program t) (hvoid : t ≠ .void) :
      Typed env (.newArray id src size elem) (.array t)
  | step {id : NodeId} {op : Token} {operand : Expr} {t : Ty}
      (hop : op.kind ∈ [.mark .inc, .mark .dec]) (htarget : operand.isLValue) (hnum : t.isNumeric)
      (h : Typed env operand t) : Typed env (.step id (some op) operand) t

/-! ### Declarations that can be relied on -/

/-- Whether the error type occurs in a type, at any depth of arrays. -/
def Ty.mentionsError : Ty → Bool
  | error => true
  | array elem => elem.mentionsError
  | _ => false

/-- A declaration has a type, and the error type does not occur in it. -/
def SoundType (t : Option Ty) : Prop :=
  ∃ u, t = some u ∧ u.mentionsError = false

/-- The parameters and the result of a method have types with the property `P`. -/
structure Method.Declares (P : Option Ty → Prop) (m : Method) : Prop where
  params : ∀ q ∈ m.params, P q.type
  ret : P m.ret

/-- All declarations are made with a type that has the property `P`, which may be about missing
    types too. -/
structure Env.Declares (P : Option Ty → Prop) (env : Env) : Prop where
  locals : ∀ s ∈ env.context.scopes, ∀ v ∈ s.symbols.values, P v.type
  globals : ∀ v ∈ env.program.globals.symbols.values, P v.type
  fields : ∀ c ∈ env.program.classes.values, ∀ f ∈ c.fields, P f.type
  methods : ∀ c ∈ env.program.classes.values, ∀ m ∈ c.methods.values, m.Declares P
  functions : ∀ f ∈ env.program.functions.values, f.Declares P

/-- The parameters and the result of a method have sound types. -/
abbrev Method.Sound (m : Method) : Prop :=
  m.Declares SoundType

/-- All that is declared has a type in which the error type does not occur. -/
abbrev Env.Clean (env : Env) : Prop :=
  env.Declares SoundType

end Decaf
