import Decaf.Llvm.Name

namespace Decaf.Llvm

/-!
# LLVM modules

The part of LLVM that a laid-out program needs: types, struct definitions, global variables with
their initial values, and declarations of functions. The struct of a class with a name is written by
that name. One without a name is a literal struct: it is written as its fields wherever it occurs,
so writing a type needs the definitions of the module.

* `Ty.text`, `TypeDef.text`, `Global.text`, `Func.text` — the lines that write them.
* `Module.text` — a whole module.
-/

/-! ### Types -/

/-- A type. -/
inductive Ty where
  | i1
  | i8
  | i32
  | double
  | void
  | pointer (target : Ty)
  /-- The struct of the class of the given name, which is not empty. -/
  | class_ (name : String)
  /-- The struct without a name that has so many definitions before its own. -/
  | literal (number : Nat)
  /-- What an array value points at: the length, then a pointer to the elements. -/
  | arrayRecord (elem : Ty)
  /-- A constant text of so many bytes. -/
  | bytes (length : Nat)
  /-- The dispatch table of a class: its name, its parent's table, and so many methods. -/
  | vtable (slots : Nat)
deriving DecidableEq, Repr

/-- A pointer to anything. -/
def Ty.anyPointer : Ty := pointer i8

/-- Between curly brackets. -/
def braces (s : String) : String :=
  "\x7b " ++ s ++ " \x7d"

/-- The struct of a class, given the number of its definition. -/
def Ty.struct (name : String) (number : Nat) : Ty :=
  if name.isEmpty then literal number else class_ name

/-- How the type is written, given how literal structs are. -/
def Ty.textWith (body : Nat → String) : Ty → String
  | i1 => "i1"
  | i8 => "i8"
  | i32 => "i32"
  | double => "double"
  | void => "void"
  | pointer target => target.textWith body ++ "*"
  | class_ name => "%" ++ typeName name
  | literal number => body number
  | arrayRecord elem => braces ("i32, " ++ elem.textWith body ++ "*")
  | bytes length => s!"[{length} x i8]"
  | vtable slots => braces s!"i8*, i8*, [{slots} x i8*]"

/-- The definition of the struct of a class. -/
structure TypeDef where
  name : String
  fields : List Ty
deriving DecidableEq, Repr

/-- The struct without fields. -/
def emptyBody : String := "\x7b\x7d"

/-- The fields of a struct, given how literal structs are written. -/
def TypeDef.bodyWith (body : Nat → String) (d : TypeDef) : String :=
  if d.fields.isEmpty then emptyBody
  else braces (", ".intercalate (d.fields.map (Ty.textWith body)))

/-- How a literal struct is written. No struct can hold itself without a name in between, so a
    literal struct inside a literal struct is left empty. -/
def literalBody (defs : List TypeDef) (number : Nat) : String :=
  (defs[number]?.map (TypeDef.bodyWith fun _ => emptyBody)).getD emptyBody

/-- How the type is written in a module with the given definitions. -/
def Ty.text (defs : List TypeDef) (t : Ty) : String :=
  t.textWith (literalBody defs)

/-- The line that writes the definition. -/
def TypeDef.text (defs : List TypeDef) (d : TypeDef) : String :=
  let body := d.bodyWith (literalBody defs)
  let head := if d.name.isEmpty then body else "%" ++ typeName d.name
  s!"{head} = type {body}"

/-! ### Functions -/

/-- A parameter, which may be without a name. -/
structure Param where
  name : String
  type : Ty
deriving DecidableEq, Repr

/-- The declaration of a function. -/
structure Func where
  name : String
  ret : Ty
  params : List Param
deriving DecidableEq, Repr

/-- The parameters of a declaration; `number` is that of the next parameter without a name. -/
def paramTexts (defs : List TypeDef) (number : Nat) : List Param → List String
  | [] => []
  | p :: ps =>
    let type := p.type.text defs
    if p.name.isEmpty then s!"{type} %{number}" :: paramTexts defs (number + 1) ps
    else s!"{type} %{symbolName p.name}" :: paramTexts defs number ps

namespace Func

/-- The type of the function. -/
def typeText (defs : List TypeDef) (f : Func) : String :=
  let ret := f.ret.text defs
  let params := ", ".intercalate (f.params.map (·.type.text defs))
  s!"{ret} ({params})"

/-- The line that writes the declaration. -/
def text (defs : List TypeDef) (f : Func) : String :=
  let ret := f.ret.text defs
  let params := ", ".intercalate (paramTexts defs 0 f.params)
  s!"declare {ret} @{symbolName f.name}({params})"

end Func

/-! ### Global variables -/

/-- A reference to a global variable that holds a value of the given type. -/
structure Ref where
  name : String
  type : Ty
deriving DecidableEq, Repr

/-- The contents of a dispatch table. -/
structure VTable where
  /-- The constant that holds the name of the class. -/
  label : Ref
  /-- The table of the parent. -/
  parent : Option Ref
  /-- The methods by slot. -/
  methods : List Func
deriving DecidableEq, Repr

/-- The initial value of a global variable. -/
inductive Init where
  /-- All zero. -/
  | zero (type : Ty)
  /-- The bytes of a text. -/
  | chars (text : String)
  | vtable (table : VTable)
deriving DecidableEq, Repr

/-- A value of type `type`, seen as a pointer to anything. -/
def bitcast (type symbol : String) : String :=
  s!"i8* bitcast ({type}* @{symbolName symbol} to i8*)"

namespace Ref

/-- The address of the variable, as a pointer to anything. -/
def text (defs : List TypeDef) (r : Ref) : String :=
  bitcast (r.type.text defs) r.name

end Ref

namespace Init

/-- The type of the value. -/
def type : Init → Ty
  | zero type => type
  | chars text => .bytes text.utf8ByteSize
  | vtable table => .vtable table.methods.length

/-- How the value is written. -/
def text (defs : List TypeDef) : Init → String
  | zero _ => "zeroinitializer"
  | chars text => "c\"" ++ escape text ++ "\""
  | vtable table =>
    let label := table.label.text defs
    let parent := (table.parent.map (Ref.text defs)).getD "i8* null"
    let methods := ", ".intercalate (table.methods.map fun f => bitcast (f.typeText defs) f.name)
    braces s!"{label}, {parent}, [{table.methods.length} x i8*] [{methods}]"

end Init

/-- A global variable. -/
structure Global where
  name : String
  init : Init
deriving DecidableEq, Repr

namespace Global

/-- A reference to the variable. -/
def ref (g : Global) : Ref :=
  ⟨g.name, g.init.type⟩

/-- The line that writes the variable. -/
def text (defs : List TypeDef) (g : Global) : String :=
  let type := g.init.type.text defs
  let init := g.init.text defs
  s!"@{symbolName g.name} = global {type} {init}"

end Global

/-! ### Modules -/

/-- A module. Everything is in the order in which it was made. -/
structure Module where
  triple : String
  typeDefs : List TypeDef := []
  globals : List Global := []
  funcs : List Func := []
deriving DecidableEq, Repr

/-- The whole module: the target, the types, the globals and each of the functions, with an empty
    line between. -/
def Module.text (m : Module) : String :=
  let target := if m.triple.isEmpty then [] else [s!"target triple = {quoted m.triple}"]
  let groups :=
    [target, m.typeDefs.map (TypeDef.text m.typeDefs), m.globals.map (Global.text m.typeDefs)] ++
      m.funcs.map ([·.text m.typeDefs])
  let paragraphs := (groups.filter (!·.isEmpty)).map fun g => String.join (g.map (· ++ "\n"))
  "\n".intercalate paragraphs

end Decaf.Llvm
