import Decaf.Layout
import Decaf.Lowering
import Decaf.Program.Validity
import Decaf.Text.Category
import Decaf.Typing.Check

namespace Decaf

/-!
# Generating modules

A generator lays a program out as an LLVM module: a struct and a dispatch table for each class, a
declaration for each method and function, and a definition for each global variable. The stages can
be run one by one; each builds on what the stages before it have made, and a stage that fails keeps
what it has made so far.

* `Generator.buildLayouts`, `Generator.declareClasses`, `Generator.declareMethods`,
  `Generator.constructVTables`, `Generator.declareGlobals` — the stages.
* `Generator.generate` — all of them, for a program with a valid hierarchy.
-/

/-- Why nothing is generated. -/
inductive GenError where
  | invalidHierarchy (error : HierarchyError)
  | attributeRedefined (error : AttributeRedefined)
  | fieldType (cls field : String) (reason : LowerError)
  | returnType (function : String) (reason : LowerError)
  | paramType (param function : String) (reason : LowerError)
  | voidParam (param function : String)
  | globalType (name : String) (reason : LowerError)
  | declaredTwice (function : String)
  | noParentTable (parent cls : String)
  | noMethodFunction (symbol : String)
  | noLayout (cls : String)
  | noField (cls field : String)
  | noMethod (cls method : String)
  | missingExpression
  /-- The expression has no known type; it may be too incomplete to be quoted. -/
  | unchecked (literal : Option String)
  | lowering (reason : LowerError)
deriving DecidableEq, Repr

/-- What there is to say about it. -/
def GenError.message : GenError → String
  | invalidHierarchy error => s!"codegen: invalid class hierarchy: {error.message}"
  | attributeRedefined error => error.message
  | fieldType cls field reason => s!"field {cls}.{field}: {reason.message}"
  | returnType function reason => s!"return type of {function}: {reason.message}"
  | paramType param function reason => s!"parameter {param} of {function}: {reason.message}"
  | voidParam param function => s!"parameter {param} of {function} has type void"
  | globalType name reason => s!"global {name}: {reason.message}"
  | declaredTwice function => s!"function {function} is declared twice"
  | noParentTable parent cls => s!"parent vtable {parent} not found for class {cls}"
  | noMethodFunction symbol => s!"method {symbol} not found in methods map"
  | noLayout cls => s!"class {cls} not found in class table"
  | noField cls field => s!"class {cls} has no field {field}"
  | noMethod cls method => s!"class {cls} has no method {method}"
  | missingExpression => "cannot lower a missing expression"
  | unchecked literal =>
    let quoted := Text.quote (literal.getD "")
    s!"expression {quoted} has not been checked"
  | lowering reason => reason.message

/-- What a generator notes in its trace. -/
inductive GenEvent where
  | declaredClass (cls : String) (fields : Nat)
  | constructedVTable (cls : String) (slots : Nat)
deriving DecidableEq, Repr

/-- The line of the trace that tells of an event. -/
def GenEvent.text : GenEvent → String
  | declaredClass cls fields => s!"Declared class {cls} with {fields} fields"
  | constructedVTable cls slots => s!"Constructed vtable for {cls} with {slots} slots"

/-- The target that a module is made for unless another is asked for. -/
def defaultTriple : String := "arm64-apple-macosx"

/-- What has been generated so far. -/
structure Generator where
  module : Llvm.Module := { triple := defaultTriple }
  layouts : Dict Layout := .empty
  /-- The structs that are known: for each class, the number of its last definition. -/
  structs : Dict Nat := .empty
  functions : Dict Llvm.Func := .empty
  vtables : Dict Llvm.Global := .empty
  globals : Dict Llvm.Global := .empty
  log : List GenEvent := []
deriving DecidableEq

/-- A stage may fail, and keeps what it has made. -/
abbrev Gen := ExceptT GenError (StateM Generator)

namespace Generator

/-- A generator that has made nothing, for a program and a target. -/
def create (p : Option Program) (triple : String) : Except SetupError Generator :=
  if p.isNone then .error .generatorNeedsProgram else .ok { module := { triple := triple } }

/-! ### What has been made -/

/-- The offset of a field in the objects of a class. -/
def fieldOffset (g : Generator) (cls field : String) : Except GenError Nat :=
  match g.layouts.get? cls with
  | none => .error (.noLayout cls)
  | some l =>
    match l.field? field with
    | none => .error (.noField cls field)
    | some a => .ok a.offset

/-- The slot of a method in the dispatch table of a class. -/
def methodSlot (g : Generator) (cls method : String) : Except GenError Nat :=
  match g.layouts.get? cls with
  | none => .error (.noLayout cls)
  | some l =>
    match l.slots.get? method with
    | none => .error (.noMethod cls method)
    | some slot => .ok slot.index

/-- The representation of a type. -/
def lower (g : Generator) (p : Program) (t : Option Ty) : Except LowerError Llvm.Ty :=
  lowerDeclared p g.structs t

/-- The representation of the type that a checker has found for an expression. -/
def exprType (g : Generator) (p : Program) (c : Checker) (e : Expr) : Except GenError Llvm.Ty :=
  if e.isAbsent then .error .missingExpression
  else
    match e.id?.bind c.typeOf? with
    | none => .error (.unchecked e.literal?)
    | some t =>
      match g.lower p t with
      | .ok t => .ok t
      | .error e => .error (.lowering e)

/-! ### Making things -/

/-- Adds a definition of a struct. -/
def addTypeDef (g : Generator) (d : Llvm.TypeDef) : Generator :=
  { g with module := { g.module with typeDefs := g.module.typeDefs ++ [d] } }

/-- Adds a global variable. -/
def addGlobal (g : Generator) (v : Llvm.Global) : Generator :=
  { g with module := { g.module with globals := g.module.globals ++ [v] } }

/-- Adds a declaration of a function. -/
def addFunc (g : Generator) (f : Llvm.Func) : Generator :=
  { g with module := { g.module with funcs := g.module.funcs ++ [f] } }

/-- Notes an event. -/
def note (g : Generator) (e : GenEvent) : Generator :=
  { g with log := g.log ++ [e] }

/-! ### Layouts -/

/-- Computes the layouts of all classes anew. -/
def buildLayouts (p : Program) : Gen Unit := do
  let (layouts, error) := p.layouts
  modify ({ · with layouts })
  match error with
  | some e => throw (.attributeRedefined e)
  | none => return

/-! ### Structs -/

/-- The representations of the fields of a class. -/
def fieldTypes (p : Program) (structs : Dict Nat) (cls : String) :
    List Attribute → Except GenError (List Llvm.Ty)
  | [] => .ok []
  | a :: as =>
    match lowerDeclared p structs a.type with
    | .error e => .error (.fieldType cls a.name e)
    | .ok t =>
      match fieldTypes p structs cls as with
      | .error e => .error e
      | .ok ts => .ok (t :: ts)

/-- Adds a definition for each class. From the first class on whose fields have no representation,
    the structs stay empty. -/
def defineStructs (p : Program) : List Layout → Gen Unit
  | [] => return
  | l :: ls => do
    match fieldTypes p (← get).structs l.name l.attributes with
    | .error e =>
      modify fun g => (l :: ls).foldl (fun g l => g.addTypeDef ⟨l.name, []⟩) g
      throw e
    | .ok types =>
      modify fun g => (g.addTypeDef ⟨l.name, .anyPointer :: types⟩).note
        (.declaredClass l.name l.attributes.length)
      defineStructs p ls

/-- Makes the structs of classes known, with numbers from `number` on. -/
def numberStructs (structs : Dict Nat) : (number : Nat) → List Layout → Dict Nat
  | _, [] => structs
  | number, l :: ls => numberStructs (structs.insert l.name number) (number + 1) ls

/-- Defines the structs of classes: a reference to the dispatch table, then the fields. All structs
    are known before the first is filled, so classes can refer to each other. -/
def declareStructs (p : Program) (order : List Layout) : Gen Unit := do
  modify fun g => { g with structs := numberStructs g.structs g.module.typeDefs.length order }
  defineStructs p order

/-- Defines the struct of each class, parents first. -/
def declareClasses (p : Program) : Gen Unit := do
  declareStructs p (layoutOrder (← get).layouts)

/-! ### Functions -/

/-- The representations of parameters. -/
def lowerParams (p : Program) (structs : Dict Nat) (function : String) :
    List Param → Except GenError (List Llvm.Param)
  | [] => .ok []
  | q :: qs =>
    match lowerDeclared p structs q.type with
    | .error e => .error (.paramType q.name function e)
    | .ok t =>
      if t = .void then .error (.voidParam q.name function)
      else
        match lowerParams p structs function qs with
        | .error e => .error e
        | .ok params => .ok (⟨q.name, t⟩ :: params)

/-- The declaration of a function named `name`, with `leading` before the parameters of its
    signature. -/
def lowerSignature (p : Program) (structs : Dict Nat) (name : String) (m : Method)
    (leading : List Llvm.Param) : Except GenError Llvm.Func :=
  match lowerDeclared p structs m.ret with
  | .error e => .error (.returnType name e)
  | .ok ret =>
    match lowerParams p structs name m.params with
    | .error e => .error e
    | .ok params => .ok ⟨name, ret, leading ++ params⟩

/-- Declares a function, and gives the declaration back. -/
def declareFunc (p : Program) (name : String) (m : Method) (leading : List Llvm.Param) :
    Gen Llvm.Func := do
  match lowerSignature p (← get).structs name m leading with
  | .error e => throw e
  | .ok f =>
    modify (·.addFunc f)
    return f

/-- Makes a declaration known by its name. -/
def register (f : Llvm.Func) : Gen Unit :=
  modify fun g => { g with functions := g.functions.insert f.name f }

/-- Declares a method of a class. The object on which it is called comes first. -/
def declareMethod (p : Program) (cls : String) (m : Method) : Gen Unit := do
  -- a struct that is not known yet is referred to as if it were the first
  let number := ((← get).structs.get? cls).getD 0
  let receiver : Llvm.Param := ⟨"this", .pointer (.struct cls number)⟩
  let f ← declareFunc p (methodSymbol cls m.name) m [receiver]
  -- the declaration stays in the module even if there is another of its name
  if (← get).functions.contains f.name then throw (.declaredTwice f.name)
  register f

/-- The methods that a class declares itself, by name. -/
def ownMethods (p : Program) (l : Layout) : List Method :=
  ((p.class? l.name).map (·.methods.values)).getD []

/-- Declares every method that a class declares itself. -/
def declareMethods (p : Program) : Gen Unit := do
  (layoutOrder (← get).layouts).forM fun l => (ownMethods p l).forM (declareMethod p l.name)

/-! ### Dispatch tables -/

/-- The name of the constant that holds the name of a class. -/
def labelSymbol (cls : String) : String :=
  ".str." ++ String.ofList
    (cls.toList.map fun c => if Text.isLetter c || Text.isNumber c then c else '_')

/-- The name of the dispatch table of a class. -/
def vtableSymbol (cls : String) : String :=
  cls ++ ".vtable"

/-- The constant that holds the name of a class, with a zero byte at its end. If there already is a
    global of its name, that one serves. -/
def label (cls : String) : Gen Llvm.Ref := do
  match (← get).module.globals.find? (·.name = labelSymbol cls) with
  | some g => return g.ref
  | none =>
    let g : Llvm.Global := ⟨labelSymbol cls, .chars (cls ++ "\x00")⟩
    modify (·.addGlobal g)
    return g.ref

/-- The functions behind slots. -/
def slotFuncs (functions : Dict Llvm.Func) : List Slot → Except GenError (List Llvm.Func)
  | [] => .ok []
  | s :: ss =>
    match functions.get? s.symbol with
    | none => .error (.noMethodFunction s.symbol)
    | some f =>
      match slotFuncs functions ss with
      | .error e => .error e
      | .ok fs => .ok (f :: fs)

/-- The table of the parent of a class. -/
def parentTable (vtables : Dict Llvm.Global) (l : Layout) : Except GenError (Option Llvm.Ref) :=
  match l.parent with
  | none => .ok none
  | some parent =>
    match vtables.get? parent with
    | none => .error (.noParentTable parent l.name)
    | some g => .ok (some g.ref)

/-- Defines the dispatch table of a class, which has the functions behind `slots`. -/
def constructVTable (l : Layout) (slots : List Slot) : Gen Unit := do
  -- the constant with the name is made first, and stays if the rest fails
  let label ← label l.name
  let g ← get
  let parent ← parentTable g.vtables l
  let methods ← slotFuncs g.functions slots
  let table : Llvm.Global := ⟨vtableSymbol l.name, .vtable { label, parent, methods }⟩
  modify fun g =>
    { g.addGlobal table with vtables := g.vtables.insert l.name table }.note
      (.constructedVTable l.name methods.length)

/-- Defines the dispatch tables of all classes, parents first, so that each can refer to that of its
    parent. -/
def constructVTables : Gen Unit := do
  (layoutOrder (← get).layouts).forM fun l => constructVTable l l.dispatchOrder

/-! ### Functions and globals outside of classes -/

/-- Declares a function. -/
def declareFunction (p : Program) (name : String) (m : Method) : Gen Unit := do
  if (← get).functions.contains name then throw (.declaredTwice name)
  register (← declareFunc p name m [])

/-- Defines a global variable, all zero at first. -/
def defineGlobal (p : Program) (name : String) (type : Option Ty) : Gen Unit := do
  match (← get).lower p type with
  | .error e => throw (.globalType name e)
  | .ok t =>
    let v : Llvm.Global := ⟨name, .zero t⟩
    modify fun g => { g.addGlobal v with globals := g.globals.insert name v }

/-- Declares the functions, then the global variables, each by name. -/
def declareGlobals (p : Program) : Gen Unit := do
  p.functions.entries.forM fun (name, m) => declareFunction p name m
  p.globals.symbols.entries.forM fun (name, s) => defineGlobal p name s.type

/-! ### All stages -/

/-- Generates the module of a program, provided that its hierarchy is valid. -/
def generate (p : Program) : Gen Unit := do
  match p.hierarchyErrors with
  | e :: _ => throw (.invalidHierarchy e)
  | [] =>
    buildLayouts p
    declareClasses p
    declareMethods p
    constructVTables
    declareGlobals p

end Generator

end Decaf
