import Decaf.Program.Basic

namespace Decaf

/-!
# Finding declarations

What a name means in a program: members of a class are looked for in the class and in the classes
above it.

* `Program.field?` — a field, declared or inherited.
* `Program.method?` — a method, declared or inherited; a method of an interface counts if no class
  has one.
* `Program.isSubtype`, `Program.isAssignable` — when a value of one type may stand where another is
  expected.
-/

namespace Program

/-! ### Members, functions and globals -/

/-- The type of the field of the given name, from the class upwards. -/
def field? (p : Program) (cls name : String) : Option (Option Ty) :=
  ((p.chain cls).findSome? fun a => (p.class? a).bind (·.field? name)).map (·.type)

/-- A method of one of the interfaces that a class lists. -/
def promised? (p : Program) (c : ClassDecl) (name : String) : Option Method :=
  c.interfaces.findSome? fun i => (p.class? i).bind (·.method? name)

/-- The method of the given name: of the nearest class that declares one, else of an interface that
    the class or a class above it lists. The search ends at a class that is not declared. -/
def method? (p : Program) (cls name : String) : Option Method :=
  let line := p.declared (p.chain cls)
  (line.findSome? (·.method? name)).or (line.findSome? (p.promised? · name))

/-- The function of the given name. -/
def function? (p : Program) (name : String) : Option Method :=
  p.functions.get? name

/-- The type of the global variable of the given name. -/
def global? (p : Program) (name : String) : Option (Option Ty) :=
  (p.globals.get? name).map (·.type)

/-! ### Contexts -/

/-- The context of a method body of a class, before its parameters are declared. -/
def methodContext (p : Program) (cls : String) : Except DeclError Context :=
  if p.classes.contains cls then .ok { cls := some cls, scopes := [{ kind := .parameter }] }
  else .error (.unknownClass cls)

/-! ### Subtypes -/

/-- Whether `sub` is `super`, is below it, or implements it, itself or through a class above it. -/
def isSubtype (p : Program) (sub super : String) : Bool :=
  (p.chain sub).any fun a => a = super || ((p.class? a).any fun c => c.interfaces.contains super)

/-- Whether a value of type `src` may stand where `dst` is expected. The error type fits everywhere,
    so that one mistake is not reported twice. -/
def isAssignable (p : Program) (src dst : Ty) : Bool :=
  src.isError || dst.isError || src = dst ||
    match src, dst with
    | .null, dst => dst.isReference
    | .named sub, .named super => p.isSubtype sub super
    | _, _ => false

/-- The same for types that may be missing, unless the answer needs one that is. -/
def isAssignable? (p : Program) : (src dst : Option Ty) → Option Bool
  | some .error, _ => some true
  | some src, some dst => some (p.isAssignable src dst)
  | _, _ => none

end Program

end Decaf
