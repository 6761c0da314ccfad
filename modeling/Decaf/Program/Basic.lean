import Decaf.Hierarchy
import Decaf.Scope

namespace Decaf

/-!
# Programs

A program is what its declarations say: classes and interfaces with their members, the hierarchy of
the classes, functions, and global variables. Declarations are made one at a time, in any order, and
each is either accepted or refused; a refused declaration changes nothing.

* `Program.addClass`, `Program.addInterface` — new classes. A parent or an interface may be declared
  later.
* `Program.addField`, `Program.addMethod` — new members. A field hides none that an ancestor has by
  then, and a method that overrides another by then repeats its signature.
* `Program.addFunction`, `Program.addGlobal` — what stands outside of classes.
-/

/-- A class or an interface, with the members that it declares itself. -/
structure ClassDecl where
  name : String
  /-- The class that it extends. -/
  parent : Option String := none
  interfaces : List String := []
  isInterface : Bool := false
  /-- In the order of declaration. -/
  fields : List Symbol := []
  methods : Dict Method := .empty
deriving DecidableEq

namespace ClassDecl

/-- The field of the given name that the class declares itself. -/
def field? (c : ClassDecl) (name : String) : Option Symbol :=
  c.fields.find? (·.name = name)

/-- The method of the given name that the class declares itself. -/
def method? (c : ClassDecl) (name : String) : Option Method :=
  c.methods.get? name

end ClassDecl

/-- The declarations of a program. -/
structure Program where
  classes : Dict ClassDecl := .empty
  hierarchy : Hierarchy := .empty
  functions : Dict Method := .empty
  globals : Scope := { kind := .global }
deriving DecidableEq

namespace Program

/-- The program without declarations. -/
def empty : Program := {}

/-! ### Along the hierarchy -/

/-- The class or interface of the given name. -/
def class? (p : Program) (name : String) : Option ClassDecl :=
  p.classes.get? name

/-- A class and the classes above it, by name, from the class upwards. -/
def chain (p : Program) (cls : String) : List String :=
  cls :: p.hierarchy.ancestors cls

/-- The declarations of the named classes, as far as they are all declared. -/
def declared (p : Program) : List String → List ClassDecl
  | [] => []
  | name :: rest =>
    match p.class? name with
    | some c => c :: p.declared rest
    | none => []

/-! ### Classes -/

/-- Makes `parent` the parent of `child`, declared or not. -/
def link (p : Program) (child parent : String) : Except DeclError Program :=
  match p.hierarchy.link child parent with
  | .error e => .error e
  | .ok h => .ok { p with hierarchy := h }

/-- Declares a class. The empty name is no parent. -/
def addClass (p : Program) (name : String) (parent : Option String) (interfaces : List String) :
    Except DeclError Program :=
  let parent := parent.filter (· ≠ "")
  if p.classes.contains name then .error (.classRedefined name)
  else
    let add (p : Program) : Program :=
      { p with classes := p.classes.insert name { name, parent, interfaces } }
    match parent with
    | none => .ok (add p)
    | some parent =>
      -- a class that was linked before it was declared has its parent already, and is refused
      match p.link name parent with
      | .error e => .error e
      | .ok p => .ok (add p)

/-- Declares an interface. -/
def addInterface (p : Program) (name : String) : Except DeclError Program :=
  if p.classes.contains name then .error (.interfaceRedefined name)
  else .ok { p with classes := p.classes.insert name { name, isInterface := true } }

/-! ### Members -/

/-- The field of the given name that an ancestor of `cls` declares. -/
def inheritedField? (p : Program) (cls name : String) : Option Symbol :=
  (p.hierarchy.ancestors cls).findSome? fun a => (p.class? a).bind (·.field? name)

/-- The method of the given name that the nearest ancestor of `cls` declares, as far as ancestors
    are declared. -/
def inheritedMethod? (p : Program) (cls name : String) : Option Method :=
  (p.declared (p.hierarchy.ancestors cls)).findSome? (·.method? name)

/-- Declares a field of a class. -/
def addField (p : Program) (cls name : String) (type : Option Ty) : Except DeclError Program :=
  match p.class? cls with
  | none => .error (.unknownClass cls)
  | some c =>
    if c.isInterface then .error (.fieldInInterface cls name)
    else if (c.field? name).isSome then .error (.fieldRedefined cls name)
    else if (c.method? name).isSome then .error (.fieldIsMethod cls name)
    -- an ancestor that is not declared yet is passed over
    else if (p.inheritedField? cls name).isSome then .error (.fieldRedefined cls name)
    else
      let field : Symbol := { name, kind := .field, type, owner := some cls }
      .ok { p with classes := p.classes.insert cls { c with fields := c.fields ++ [field] } }

/-- Declares a method of a class or of an interface. -/
def addMethod (p : Program) (cls : String) (m : Method) : Except DeclError Program :=
  match p.class? cls with
  | none => .error (.unknownClass cls)
  | some c =>
    if (c.method? m.name).isSome then .error (.methodRedefined cls m.name)
    else if (c.field? m.name).isSome then .error (.methodIsField cls m.name)
    else
      -- only the nearest method above is looked at, whatever is above that one
      match (p.inheritedMethod? cls m.name).bind (·.mismatch? m) with
      | some reason => .error (.invalidOverride cls m.name reason)
      | none =>
        let m := { m with owner := some cls }
        .ok { p with
          classes := p.classes.insert cls { c with methods := c.methods.insert m.name m } }

/-! ### Functions and globals -/

/-- Declares a function. -/
def addFunction (p : Program) (f : Method) : Except DeclError Program :=
  if p.functions.contains f.name then .error (.functionRedefined f.name)
  else if p.globals.symbols.contains f.name then .error (.functionIsGlobal f.name)
  else .ok { p with functions := p.functions.insert f.name f }

/-- Declares a global variable. -/
def addGlobal (p : Program) (name : String) (type : Option Ty) : Except DeclError Program :=
  if p.functions.contains name then .error (.globalIsFunction name)
  else
    match p.globals.declare name type with
    | .error e => .error e
    | .ok globals => .ok { p with globals }

end Program

end Decaf
