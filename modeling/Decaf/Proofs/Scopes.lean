import Decaf.Program.Lookup
import Decaf.Proofs.Program.Declarations
import Mathlib.Data.List.Induction

namespace Decaf

/-!
# Scopes that grow

Scopes are opened one inside the other, and variables are declared in any of them at any time, also
in one that others have been opened inside of since.  What a name stands for at a place is decided
by the scopes around the place alone: the nearest one in which the name has been declared.

* `ScopeOp`, `Workspace` — what may be done, and what there is then: a program, and the places that
  were made.
* `ScopeEvent`, `Workspace.history` — what was done: places that were made, and variables that were
  bound.
* `Chain` — the scopes around a place, as they were opened.
* `Sees` — a scope is on a chain, and no nearer one binds the name.
* `Workspace.Faithful` — a workspace is what its history says, which every operation keeps.
* `Workspace.Built`, `Workspace.Offers` — a workspace that operations build, and the contexts that
  it offers, whose classes are declared (`Workspace.Built.declared`).
* `lexical_scoping` — look-ups, refusals and the effect of a declaration, in terms of the history.
-/

/-! ### Operations -/

/-- What may be done.  Places are told by their numbers, in the order in which they were made. -/
inductive ScopeOp where
  /-- A declaration of the program: a class, a member, a function or a global variable. -/
  | program (d : Decl)
  /-- A place in a method of a class. -/
  | method (cls : String)
  /-- A place in a function. -/
  | function
  /-- A place inside another. -/
  | enter (outer : Nat) (kind : SymbolKind)
  /-- A variable in the innermost scope of a place. -/
  | declare (place : Nat) (name : String) (type : Option Ty)

/-- A program, the scopes that were opened, and the places that were made. -/
structure Workspace where
  program : Program
  scopes : Scopes := {}
  places : List Place := []

/-- What was done to the scopes.  The scope that was opened for a place has the number of the
    place. -/
inductive ScopeEvent where
  /-- A place was made, inside another or alone. -/
  | made (outer : Option Nat)
  | bound (place : Nat) (name : String) (type : Option Ty)
deriving DecidableEq

namespace Workspace

/-- Keeps a new place. -/
def add (w : Workspace) (new : Place × Scopes) : Workspace :=
  { w with scopes := new.2, places := w.places ++ [new.1] }

/-- The workspace after an operation, unless it is refused. -/
def perform? (w : Workspace) : ScopeOp → Option Workspace
  | .program d => (w.program.declare d).toOption.map ({ w with program := · })
  | .method cls =>
    (w.program.methodContext cls).toOption.map fun ctx => w.add (w.scopes.fresh ctx.cls .parameter)
  | .function => some (w.add (w.scopes.fresh none .parameter))
  | .enter outer kind => w.places[outer]?.map fun place => w.add (w.scopes.enter place kind)
  | .declare place name type =>
    w.places[place]?.bind fun place =>
      (w.scopes.declare place name type).toOption.map ({ w with scopes := · })

/-- The workspace after an operation.  One that is refused changes nothing. -/
def after (w : Workspace) (op : ScopeOp) : Workspace :=
  (w.perform? op).getD w

/-- What an operation does, unless it is refused. -/
def event? (w : Workspace) (op : ScopeOp) : Option ScopeEvent :=
  (w.perform? op).bind fun _ =>
    match op with
    | .program _ => none
    | .method _ | .function => some (.made none)
    | .enter outer _ => some (.made (some outer))
    | .declare place name type => some (.bound place name type)

/-- The workspace after operations. -/
def run (w : Workspace) (ops : List ScopeOp) : Workspace :=
  ops.foldl after w

/-- What operations do, one after the other. -/
def history (w : Workspace) : List ScopeOp → List ScopeEvent
  | [] => []
  | op :: ops => (w.event? op).toList ++ (w.after op).history ops

/-- The type of the variable that a name stands for at a place. -/
def typeOf? (w : Workspace) (place : Place) (name : String) : Option (Option Ty) :=
  (w.scopes.context place).typeOf? name

end Workspace

/-! ### What a history says -/

/-- The places that were made, each with the place around it, if there is one. -/
def outers (es : List ScopeEvent) : List (Option Nat) :=
  es.filterMap fun
    | .made outer => some outer
    | .bound .. => none

/-- The scopes around a place, from the inside out: its own, then those around the place that it was
    made inside of. -/
inductive Chain (es : List ScopeEvent) : Nat → List Nat → Prop
  | alone {k : Nat} : (outers es)[k]? = some none → Chain es k [k]
  | inside {k j : Nat} {js : List Nat} :
      (outers es)[k]? = some (some j) → Chain es j js → Chain es k (k :: js)

/-- A name has been declared in a scope. -/
def Binds (es : List ScopeEvent) (k : Nat) (name : String) : Prop :=
  ∃ type, .bound k name type ∈ es

/-- The scope `k` is on the chain, and no nearer one binds the name. -/
def Sees (es : List ScopeEvent) (chain : List Nat) (name : String) (k : Nat) : Prop :=
  ∃ nearer outer, chain = nearer ++ k :: outer ∧ ∀ j ∈ nearer, ¬ Binds es j name

theorem outers_made (es : List ScopeEvent) (outer : Option Nat) :
    outers (es ++ [.made outer]) = outers es ++ [outer] :=
  List.filterMap_append

theorem outers_bound (es : List ScopeEvent) (k : Nat) (name : String) (type : Option Ty) :
    outers (es ++ [.bound k name type]) = outers es := by
  simp [outers]

/-- There is one chain from a place. -/
theorem Chain.unique {es : List ScopeEvent} {k : Nat} {js ks : List Nat} (h : Chain es k js)
    (h' : Chain es k ks) : ks = js := by
  induction h generalizing ks with
  | alone hk =>
    cases h' with
    | alone => rfl
    | inside hk' => simp [hk] at hk'
  | inside hk _ ih =>
    cases h' with
    | alone hk' => simp [hk] at hk'
    | inside hk' h' =>
      obtain rfl : _ = _ := by simpa [hk] using hk'
      rw [ih h']

/-- A chain stays what it is, whatever is done later. -/
theorem Chain.append {es : List ScopeEvent} {k : Nat} {js : List Nat} (h : Chain es k js)
    (more : List ScopeEvent) : Chain (es ++ more) k js := by
  have hkeep : ∀ {k : Nat} {outer : Option Nat}, (outers es)[k]? = some outer →
      (outers (es ++ more))[k]? = some outer := by
    intro k outer hk
    rw [outers, List.filterMap_append]
    exact List.getElem?_append_left (List.getElem?_eq_some_iff.1 hk).1 ▸ hk
  induction h with
  | alone hk => exact .alone (hkeep hk)
  | inside hk _ ih => exact .inside (hkeep hk) ih

/-! ### One scope -/

namespace Scopes

variable {s s' : Scopes} {place : Place} {name : String} {type : Option Ty}

/-- The type of the variable of the given name in the scope with the number `k`. -/
def typeIn? (s : Scopes) (k : ScopeId) (name : String) : Option (Option Ty) :=
  (s.opened[k]?.bind (·.get? name)).map (·.type)

/-- A look-up goes through the scopes around a place, from the inside out. -/
theorem typeOf?_context (s : Scopes) (place : Place) (name : String) :
    (s.context place).typeOf? name =
      (place.innermost :: place.outer).findSome? (s.typeIn? · name) := by
  rw [Context.typeOf?, Context.symbol?, ← List.head?_filterMap, context, List.filterMap_filterMap,
    List.head?_filterMap, List.map_findSome?]
  rfl

/-- A scope that has just been opened binds nothing. -/
theorem typeIn?_opened (s : Scopes) (kind : SymbolKind) (k : ScopeId) (name : String) :
    typeIn? ⟨s.opened ++ [{ kind := kind }]⟩ k name = s.typeIn? k name := by
  unfold typeIn?
  rcases Nat.lt_trichotomy k s.opened.length with hlt | rfl | hgt
  · rw [List.getElem?_append_left hlt]
  · simp [Scope.get?]
  · rw [List.getElem?_eq_none (by simp; omega), List.getElem?_eq_none (by omega)]

/-- A declaration binds a name that is free in the innermost scope, and is refused otherwise. -/
theorem declare_eq {scope : Scope} (hscope : s.opened[place.innermost]? = some scope)
    (name : String) (type : Option Ty) :
    s.declare place name type =
      match scope.get? name with
      | some _ => .error (.nameTaken name)
      | none => .ok ⟨s.opened.set place.innermost { scope with
          symbols := scope.symbols.insert name { name, kind := scope.kind, type } }⟩ := by
  have hcontains : scope.symbols.contains name = (scope.get? name).isSome := rfl
  unfold declare Scope.declare
  rw [hscope]
  dsimp only
  rw [hcontains]
  cases scope.get? name <;> rfl

theorem typeIn?_of_opened {k : ScopeId} {scope : Scope} (hscope : s.opened[k]? = some scope) :
    s.typeIn? k name = (scope.get? name).map (·.type) := by
  rw [typeIn?, hscope, Option.bind_some]

/-- **Refusals.** A declaration is refused exactly if the innermost scope binds the name. -/
theorem declare_eq_error_iff (hplace : place.innermost < s.opened.length) {e : DeclError} :
    s.declare place name type = .error e ↔
      e = .nameTaken name ∧ ∃ old, s.typeIn? place.innermost name = some old := by
  obtain ⟨scope, hscope⟩ : ∃ scope, s.opened[place.innermost]? = some scope :=
    ⟨_, List.getElem?_eq_getElem hplace⟩
  rw [declare_eq hscope, typeIn?_of_opened hscope]
  cases scope.get? name with
  | none => simp
  | some v => simp [eq_comm]

/-- **Declarations.** A declaration binds the name in the innermost scope, where it was free, and
    nothing else changes. -/
theorem typeIn?_declare (hplace : place.innermost < s.opened.length)
    (h : s.declare place name type = .ok s') :
    s'.opened.length = s.opened.length ∧ s.typeIn? place.innermost name = none ∧ ∀ k other,
      s'.typeIn? k other = if k = place.innermost ∧ other = name then some type
        else s.typeIn? k other := by
  obtain ⟨scope, hscope⟩ : ∃ scope, s.opened[place.innermost]? = some scope :=
    ⟨_, List.getElem?_eq_getElem hplace⟩
  rw [declare_eq hscope] at h
  cases hfree : scope.get? name with
  | some v =>
    rw [hfree] at h
    cases h
  | none =>
    rw [hfree] at h
    cases h
    refine ⟨List.length_set, by rw [typeIn?_of_opened hscope, hfree, Option.map_none],
      fun k other => ?_⟩
    -- only the innermost scope changes, and in it only the one name
    by_cases hk : k = place.innermost
    · subst hk
      rw [typeIn?_of_opened (List.getElem?_set_self hplace), typeIn?_of_opened hscope, Scope.get?,
        Dict.get?_insert]
      by_cases hother : other = name <;> simp [hother, Scope.get?]
    · rw [typeIn?, List.getElem?_set_ne (Ne.symm hk), if_neg fun h => hk h.1, typeIn?]

end Scopes

/-! ### What an operation does -/

namespace Workspace

variable {w : Workspace} {op : ScopeOp} {ops : List ScopeOp}

theorem run_concat (w : Workspace) (ops : List ScopeOp) (op : ScopeOp) :
    w.run (ops ++ [op]) = (w.run ops).after op :=
  List.foldl_concat ..

theorem history_concat (w : Workspace) (ops : List ScopeOp) (op : ScopeOp) :
    w.history (ops ++ [op]) = w.history ops ++ ((w.run ops).event? op).toList := by
  induction ops generalizing w with
  | nil => simp [history, run]
  | cons first ops ih =>
    rw [List.cons_append, history, ih, history, List.append_assoc]
    rfl

/-- What an operation does: nothing to the scopes, or it makes a place, alone or inside another, or
    it binds a name. -/
theorem after_cases (w : Workspace) (op : ScopeOp) :
    ((w.after op).scopes = w.scopes ∧ (w.after op).places = w.places ∧ w.event? op = none) ∨
      (∃ cls, w.after op = w.add (w.scopes.fresh cls .parameter) ∧
        w.event? op = some (.made none)) ∨
      (∃ j kind around, w.places[j]? = some around ∧
        w.after op = w.add (w.scopes.enter around kind) ∧
        w.event? op = some (.made (some j))) ∨
      ∃ k name type place scopes, w.places[k]? = some place ∧
        w.scopes.declare place name type = .ok scopes ∧
        w.after op = { w with scopes } ∧ w.event? op = some (.bound k name type) := by
  unfold after event?
  cases op with
  | program d =>
    refine .inl ?_
    -- the program has no say in what is in scope
    cases hd : w.program.declare d <;> simp [perform?, hd, Except.toOption]
  | method cls =>
    cases hctx : w.program.methodContext cls with
    | error e => exact .inl (by simp [perform?, hctx, Except.toOption])
    | ok ctx => exact .inr (.inl ⟨ctx.cls, by simp [perform?, hctx, Except.toOption]⟩)
  | function => exact .inr (.inl ⟨none, rfl, rfl⟩)
  | enter j kind =>
    cases hplace : w.places[j]? with
    | none => exact .inl (by simp [perform?, hplace])
    | some around => exact .inr (.inr (.inl ⟨j, kind, around, hplace, by simp [perform?, hplace]⟩))
  | declare k name type =>
    cases hplace : w.places[k]? with
    | none => exact .inl (by simp [perform?, hplace])
    | some place =>
      cases hdeclare : w.scopes.declare place name type with
      | error e => exact .inl (by simp [perform?, hplace, hdeclare, Except.toOption])
      | ok scopes =>
        refine .inr (.inr (.inr ⟨k, name, type, place, scopes, hplace, hdeclare, ?_⟩))
        simp [perform?, hplace, hdeclare, Except.toOption]

/-! ### The invariant -/

/-- The workspace is what the history says: every place has a scope with its number and is inside
    the scopes of its chain, and every scope binds what has been bound in it. -/
structure Faithful (w : Workspace) (es : List ScopeEvent) : Prop where
  opened : w.scopes.opened.length = w.places.length
  made : (outers es).length = w.places.length
  innermost : ∀ {k : Nat} {place : Place}, w.places[k]? = some place → place.innermost = k
  chain : ∀ {k : Nat} {place : Place}, w.places[k]? = some place → Chain es k (k :: place.outer)
  bound : ∀ {k : Nat} {name : String} {type : Option Ty}, w.scopes.typeIn? k name = some type ↔
    .bound k name type ∈ es

/-- The scope of a place has been opened. -/
theorem Faithful.innermost_lt {es : List ScopeEvent} (h : w.Faithful es) {k : Nat} {place : Place}
    (hplace : w.places[k]? = some place) : place.innermost < w.scopes.opened.length := by
  rw [h.innermost hplace, h.opened]
  exact (List.getElem?_eq_some_iff.1 hplace).1

/-- At the start there is nothing. -/
theorem faithful_start (p : Program) : Faithful { program := p } [] where
  opened := rfl
  made := rfl
  innermost := by simp
  chain := by simp
  bound := by simp [Scopes.typeIn?]

/-- A new place is the last one. -/
theorem getElem?_places_add {new : Place × Scopes} {k : Nat} {place : Place}
    (h : (w.add new).places[k]? = some place) :
    w.places[k]? = some place ∨ (k = w.places.length ∧ place = new.1) := by
  rw [add, List.getElem?_append] at h
  split at h
  · exact .inl h
  · obtain ⟨hzero, heq⟩ : k - w.places.length = 0 ∧ new.1 = place := by
      simpa [List.getElem?_singleton] using h
    exact .inr ⟨by omega, heq.symm⟩

/-- A new place, with its own scope, inside the scopes of a chain or alone. -/
theorem Faithful.add {es : List ScopeEvent} (h : w.Faithful es) {place : Place} {kind : SymbolKind}
    {outer : Option Nat} (hown : place.innermost = w.places.length)
    (hchain : Chain (es ++ [.made outer]) w.places.length (w.places.length :: place.outer)) :
    (w.add (place, ⟨w.scopes.opened ++ [{ kind := kind }]⟩)).Faithful (es ++ [.made outer]) where
  opened := by simp [Workspace.add, h.opened]
  made := by simp [Workspace.add, outers_made, h.made]
  innermost := by
    intro k place' hplace
    rcases getElem?_places_add hplace with hplace | ⟨rfl, rfl⟩
    · exact h.innermost hplace
    · exact hown
  chain := by
    intro k place' hplace
    rcases getElem?_places_add hplace with hplace | ⟨rfl, rfl⟩
    · exact (h.chain hplace).append _
    · exact hchain
  bound := by
    intro k name type
    rw [Workspace.add, Scopes.typeIn?_opened, h.bound]
    simp

/-- **Step.** Every operation keeps a workspace faithful to its history. -/
theorem Faithful.after {es : List ScopeEvent} (h : w.Faithful es) (op : ScopeOp) :
    (w.after op).Faithful (es ++ (w.event? op).toList) := by
  have hlast : ∀ outer, (outers (es ++ [.made outer]))[w.places.length]? = some outer := by
    intro outer
    rw [outers_made, ← h.made, List.getElem?_concat_length]
  rcases w.after_cases op with ⟨hscopes, hplaces, hevent⟩ | ⟨cls, hafter, hevent⟩ |
    ⟨j, kind, around, haround, hafter, hevent⟩ |
    ⟨k, name, type, place, scopes, hplace, hdeclare, hafter, hevent⟩
  · rw [hevent, Option.toList_none, List.append_nil]
    exact ⟨by rw [hscopes, hplaces, h.opened], by rw [hplaces, h.made],
      fun hk => h.innermost (hplaces ▸ hk),
      fun hk => h.chain (hplaces ▸ hk), by rw [hscopes]; exact h.bound⟩
  · rw [hafter, hevent]
    exact h.add h.opened (.alone (hlast none))
  · rw [hafter, hevent]
    refine h.add h.opened (.inside (hlast (some j)) ?_)
    rw [h.innermost haround]
    exact (h.chain haround).append _
  · rw [hafter, hevent]
    have hown : place.innermost = k := h.innermost hplace
    obtain ⟨hlength, hfree, htypes⟩ := Scopes.typeIn?_declare (h.innermost_lt hplace) hdeclare
    refine ⟨hlength.trans h.opened, (outers_bound ..).symm ▸ h.made, h.innermost,
      fun hk => (h.chain hk).append _, ?_⟩
    intro i other type'
    rw [htypes, hown, Option.toList_some, List.mem_append, List.mem_singleton, ← h.bound]
    by_cases hsame : i = k ∧ other = name
    · -- the name was free
      obtain ⟨rfl, rfl⟩ := hsame
      rw [hown] at hfree
      simp [hfree, eq_comm]
    · rw [if_neg hsame, ScopeEvent.bound.injEq]
      exact ⟨.inl, fun h => h.resolve_right fun heq => hsame ⟨heq.1, heq.2.1⟩⟩

/-- **Run.** After any operations a workspace is what its history says. -/
theorem faithful_run (p : Program) (ops : List ScopeOp) :
    (run { program := p } ops).Faithful (history { program := p } ops) := by
  induction ops using List.reverseRecOn with
  | nil => exact faithful_start p
  | append_singleton ops op ih =>
    rw [run_concat, history_concat]
    exact ih.after op

/-! ### Look-ups -/

variable {es : List ScopeEvent} {k : Nat} {place : Place} {chain : List Nat} {name : String}
    {type : Option Ty}

theorem Faithful.chain_eq (h : w.Faithful es) (hplace : w.places[k]? = some place)
    (hchain : Chain es k chain) : chain = k :: place.outer :=
  (h.chain hplace).unique hchain

theorem Faithful.typeIn?_eq_none_iff (h : w.Faithful es) :
    w.scopes.typeIn? k name = none ↔ ¬ Binds es k name := by
  rw [Option.eq_none_iff_forall_ne_some, Binds, not_exists]
  exact forall_congr' fun type => not_congr h.bound

/-- A look-up goes along the chain of a place. -/
theorem Faithful.typeOf?_eq (h : w.Faithful es) (hplace : w.places[k]? = some place)
    (hchain : Chain es k chain) (name : String) :
    w.typeOf? place name = chain.findSome? (w.scopes.typeIn? · name) := by
  rw [typeOf?, Scopes.typeOf?_context, h.innermost hplace, h.chain_eq hplace hchain]

/-- **Look-ups.** A name has the type with which it was declared in the nearest scope where it
    was. -/
theorem Faithful.typeOf?_eq_some_iff (h : w.Faithful es) (hplace : w.places[k]? = some place)
    (hchain : Chain es k chain) :
    w.typeOf? place name = some type ↔ ∃ j, Sees es chain name j ∧ .bound j name type ∈ es := by
  rw [h.typeOf?_eq hplace hchain, List.findSome?_eq_some_iff]
  constructor
  · rintro ⟨nearer, j, outer, hsplit, hj, hnearer⟩
    exact ⟨j, ⟨nearer, outer, hsplit, fun i hi => h.typeIn?_eq_none_iff.1 (hnearer i hi)⟩,
      h.bound.1 hj⟩
  · rintro ⟨j, ⟨nearer, outer, hsplit, hnearer⟩, hj⟩
    exact ⟨nearer, j, outer, hsplit, h.bound.2 hj,
      fun i hi => h.typeIn?_eq_none_iff.2 (hnearer i hi)⟩

theorem Faithful.typeOf?_eq_none_iff (h : w.Faithful es) (hplace : w.places[k]? = some place)
    (hchain : Chain es k chain) : w.typeOf? place name = none ↔ ∀ j ∈ chain, ¬ Binds es j name := by
  rw [h.typeOf?_eq hplace hchain, List.findSome?_eq_none_iff]
  exact forall₂_congr fun j _ => h.typeIn?_eq_none_iff

/-! ### Declarations -/

section Search

variable {β : Type} {f g : Nat → Option β} {b : β} {l nearer : List Nat}

/-- A search finds a new answer that nothing comes before. -/
theorem findSome?_of_first (hk : g k = some b) (hother : ∀ j, j ≠ k → g j = f j)
    (hnearer : ∀ j ∈ nearer, f j = none) (outer : List Nat) :
    (nearer ++ k :: outer).findSome? g = some b := by
  induction nearer with
  | nil => simp [hk]
  | cons j nearer ih =>
    obtain ⟨hj, hnearer⟩ := List.forall_mem_cons.1 hnearer
    by_cases hjk : j = k
    · simp [hjk, hk]
    · simpa [hother j hjk, hj] using ih hnearer

/-- A search gives the same answer as before if the new one is not found. -/
theorem findSome?_of_not_first (hother : ∀ j, j ≠ k → g j = f j)
    (hnot : ¬ ∃ nearer outer, l = nearer ++ k :: outer ∧ ∀ j ∈ nearer, f j = none) :
    l.findSome? g = l.findSome? f := by
  induction l with
  | nil => rfl
  | cons j l ih =>
    have hjk : j ≠ k := fun heq => hnot ⟨[], l, by rw [heq]; rfl, by simp⟩
    rw [List.findSome?_cons, List.findSome?_cons, hother j hjk]
    cases hj : f j with
    | some b => rfl
    | none =>
      refine ih ?_
      rintro ⟨nearer, outer, rfl, hnearer⟩
      exact hnot ⟨j :: nearer, outer, rfl, List.forall_mem_cons.2 ⟨hj, hnearer⟩⟩

end Search

/-- A declaration is refused exactly if the scope of the place binds the name. -/
theorem Faithful.declare_eq_error_iff (h : w.Faithful es) (hplace : w.places[k]? = some place)
    {e : DeclError} :
    w.scopes.declare place name type = .error e ↔ e = .nameTaken name ∧ Binds es k name := by
  rw [Scopes.declare_eq_error_iff (h.innermost_lt hplace), h.innermost hplace]
  exact and_congr_right fun _ => exists_congr fun _ => h.bound

/-- **Effect.** A declaration is seen from the places that have the scope on their chain and no
    nearer binding of the name, and from no other. -/
theorem Faithful.typeOf?_after_declare (h : w.Faithful es) (hplace : w.places[k]? = some place)
    (hfree : ¬ Binds es k name) :
    (w.after (.declare k name type)).places = w.places ∧
      ∀ i here js, w.places[i]? = some here → Chain es i js → ∀ other,
        (other = name ∧ Sees es js name k →
          (w.after (.declare k name type)).typeOf? here other = some type) ∧
        (¬ (other = name ∧ Sees es js name k) →
          (w.after (.declare k name type)).typeOf? here other = w.typeOf? here other) := by
  have hown : place.innermost = k := h.innermost hplace
  cases hdeclare : w.scopes.declare place name type with
  -- the scope is free to bind the name, so nothing is refused
  | error e => exact absurd ((h.declare_eq_error_iff hplace).1 hdeclare).2 hfree
  | ok scopes =>
    have hafter : w.after (.declare k name type) = { w with scopes } := by
      simp [Workspace.after, perform?, hplace, hdeclare, Except.toOption]
    obtain ⟨_, _, htypes⟩ := Scopes.typeIn?_declare (h.innermost_lt hplace) hdeclare
    rw [hown] at htypes
    rw [hafter]
    refine ⟨rfl, fun i here js hhere hjs other => ?_⟩
    -- places keep their chains; only what the scopes on them bind has changed
    have hlookup : typeOf? { w with scopes } here other =
        js.findSome? (scopes.typeIn? · other) := by
      rw [typeOf?, Scopes.typeOf?_context, h.innermost hhere, h.chain_eq hhere hjs]
    rw [hlookup, h.typeOf?_eq hhere hjs]
    constructor
    · rintro ⟨rfl, nearer, outer, rfl, hnearer⟩
      exact findSome?_of_first (f := (w.scopes.typeIn? · other)) (by simp [htypes])
        (fun j hj => by simp [htypes, hj])
        (fun j hj => h.typeIn?_eq_none_iff.2 (hnearer j hj)) outer
    · intro hnot
      by_cases hother : other = name
      · refine findSome?_of_not_first (k := k) (fun j hj => by simp [htypes, hj]) ?_
        rintro ⟨nearer, outer, hsplit, hnearer⟩
        exact hnot ⟨hother, nearer, outer, hsplit,
          fun j hj => h.typeIn?_eq_none_iff.1 (hother ▸ hnearer j hj)⟩
      · -- another name is bound as before in every scope
        have hsame : ∀ j, scopes.typeIn? j other = w.scopes.typeIn? j other :=
          fun j => by simp [htypes, hother]
        rw [funext hsame]

/-! ### The contexts of a program -/

/-- What an operation does to the program: nothing, or it is a declaration that is accepted. -/
theorem program_after (w : Workspace) (op : ScopeOp) :
    (w.after op).program = w.program ∨ ∃ d, w.program.declare d = .ok (w.after op).program := by
  -- only the first kind of request reaches the program, and one that is refused leaves it
  cases op with
  | program d =>
    cases hd : w.program.declare d with
    | error e => exact .inl (by simp [after, perform?, hd, Except.toOption])
    | ok q => exact .inr ⟨d, by simp [after, perform?, hd, Except.toOption]⟩
  | method cls =>
    cases hctx : w.program.methodContext cls <;> simp [after, perform?, hctx, Except.toOption, add]
  | function => exact .inl rfl
  | enter j kind => cases hplace : w.places[j]? <;> simp [after, perform?, hplace, add]
  | declare k name type =>
    cases hplace : w.places[k]? with
    | none => simp [after, perform?, hplace]
    | some place =>
      cases hdeclare : w.scopes.declare place name type <;>
        simp [after, perform?, hplace, hdeclare, Except.toOption]

/-- A place that is there after an operation was there before, or is in the class of one that was,
    or is in a class that is declared, or in none. -/
theorem mem_places_after {place : Place} (h : place ∈ (w.after op).places) :
    (∃ around ∈ w.places, place.cls = around.cls) ∨
      ∀ cls, place.cls = some cls → w.program.classes.contains cls := by
  have hnew : ∀ {new : Place × Scopes}, place ∈ (w.add new).places →
      place ∈ w.places ∨ place = new.1 := by
    intro new hmem
    rwa [add, List.mem_append, List.mem_singleton] at hmem
  have hkept : place ∈ w.places → ∃ around ∈ w.places, place.cls = around.cls :=
    fun hmem => ⟨place, hmem, rfl⟩
  unfold after at h
  cases op with
  | program d =>
    refine .inl (hkept ?_)
    cases hd : w.program.declare d <;> simpa [perform?, hd, Except.toOption] using h
  | method cls =>
    rw [perform?, Program.methodContext] at h
    by_cases hcls : w.program.classes.contains cls
    · rw [if_pos hcls] at h
      rcases hnew h with hmem | rfl
      · exact .inl (hkept hmem)
      · -- the place is refused unless the class is declared
        refine .inr fun other hother => ?_
        rwa [← Option.some.inj (show some cls = some other from hother)]
    · rw [if_neg hcls] at h
      exact .inl (hkept h)
  | function =>
    rcases hnew h with hmem | rfl
    · exact .inl (hkept hmem)
    · exact .inr fun cls hcls => by cases hcls
  | enter j kind =>
    cases hplace : w.places[j]? with
    | none => exact .inl (hkept (by simpa [perform?, hplace] using h))
    | some around =>
      rw [perform?, hplace] at h
      rcases hnew h with hmem | rfl
      · exact .inl (hkept hmem)
      · exact .inl ⟨around, List.mem_of_getElem? hplace, rfl⟩
  | declare k name type =>
    refine .inl (hkept ?_)
    cases hplace : w.places[k]? with
    | none => simpa [perform?, hplace] using h
    | some here =>
      cases hdeclare : w.scopes.declare here name type <;>
        simpa [perform?, hplace, hdeclare, Except.toOption] using h

/-- A workspace that operations build from nothing, with links between classes at any time. -/
inductive Built : Workspace → Prop
  | start : Built { program := .empty }
  | after {w : Workspace} (hw : Built w) (op : ScopeOp) : Built (w.after op)
  | link {w : Workspace} {q : Program} {child parent : String} (hw : Built w)
      (h : w.program.link child parent = .ok q) : Built { w with program := q }

/-- What an expression can be typed in: what is seen from a place, and, outside of all places, a
    context without a class and without variables. -/
inductive Offers (w : Workspace) : Context → Prop
  | outside : Offers w {}
  | place {place : Place} (h : place ∈ w.places) : Offers w (w.scopes.context place)

theorem built_run (ops : List ScopeOp) : (run { program := .empty } ops).Built := by
  induction ops using List.reverseRecOn with
  | nil => exact .start
  | append_singleton ops op ih =>
    rw [run_concat]
    exact ih.after op

/-- The program of a workspace is built by its declarations and links. -/
theorem Built.program_built (h : w.Built) : w.program.Built := by
  induction h with
  | start => exact .empty
  | @after w _ op ih =>
    rcases w.program_after op with hsame | ⟨d, hd⟩
    · rw [hsame]
      exact ih
    · exact ih.declare hd
  | link _ hlink ih => exact ih.link hlink

/-- **Run.** The class of every place is declared, whatever is done after the place is made. -/
theorem Built.declared (h : w.Built) {place : Place} (hplace : place ∈ w.places) {cls : String}
    (hcls : place.cls = some cls) : w.program.classes.contains cls := by
  induction h generalizing place with
  | start => cases hplace
  | @after w _ op ih =>
    -- a class that was declared when the place was made stays declared
    have hbefore : w.program.classes.contains cls := by
      rcases mem_places_after hplace with ⟨around, haround, hsame⟩ | hdeclared
      · exact ih haround (hsame ▸ hcls)
      · exact hdeclared cls hcls
    rcases w.program_after op with hsame | ⟨d, hd⟩
    · rwa [hsame]
    · exact Program.contains_declare hd hbefore
  | @link w q child parent _ hlink ih =>
    rw [Program.classes_link hlink]
    exact ih hplace hcls

/-- The class of every context that a workspace offers is declared. -/
theorem Built.declared_of_offers (h : w.Built) {ctx : Context} (hctx : w.Offers ctx) {cls : String}
    (hcls : ctx.cls = some cls) : w.program.classes.contains cls := by
  cases hctx with
  | outside => cases hcls
  | place hplace => exact h.declared hplace hcls

end Workspace

/-- **Lexical scoping.** Let there be any operations: declarations of the program, places in methods
    and functions and inside other places, and variables declared anywhere, in any order.  Every
    place then has one chain of scopes.

    A name has the type with which it was declared in the nearest scope of the chain in which it was
    declared, and none if there is no such scope, whatever the program declares.  A declaration is
    refused exactly if the scope of its place binds the name, and then changes nothing.  Otherwise
    the name gets its new meaning at all the places, old ones included, whose chain has that scope
    and no nearer one that binds the name; elsewhere, and for other names, nothing changes. -/
theorem lexical_scoping (p : Program) (ops : List ScopeOp) :
    let w := Workspace.run { program := p } ops
    let es := Workspace.history { program := p } ops
    ∀ k place, w.places[k]? = some place → ∃ chain, (∀ js, Chain es k js ↔ js = chain) ∧ ∀ name,
      (∀ type, w.typeOf? place name = some type ↔
        ∃ j, Sees es chain name j ∧ .bound j name type ∈ es) ∧
      (w.typeOf? place name = none ↔ ∀ j ∈ chain, ¬ Binds es j name) ∧
      ∀ type,
        let declared := w.after (.declare k name type)
        (∀ e, w.scopes.declare place name type = .error e ↔ e = .nameTaken name ∧ Binds es k name) ∧
        (Binds es k name → declared = w) ∧
        (¬ Binds es k name → declared.places = w.places ∧
          ∀ i here js, w.places[i]? = some here → Chain es i js → ∀ other,
            (other = name ∧ Sees es js name k → declared.typeOf? here other = some type) ∧
            (¬ (other = name ∧ Sees es js name k) →
              declared.typeOf? here other = w.typeOf? here other)) := by
  intro w es k place hplace
  -- the workspace does what its history tells, and the rest is read from the history
  have h : w.Faithful es := Workspace.faithful_run p ops
  have hchain := h.chain hplace
  refine ⟨k :: place.outer, fun js => ⟨fun hjs => hchain.unique hjs, fun hjs => hjs ▸ hchain⟩,
    fun name => ?_⟩
  refine ⟨fun type => h.typeOf?_eq_some_iff hplace hchain, h.typeOf?_eq_none_iff hplace hchain,
    fun type => ?_⟩
  intro declared
  refine ⟨fun e => h.declare_eq_error_iff hplace, fun hbinds => ?_,
    fun hfree => h.typeOf?_after_declare hplace hfree⟩
  have hrefused : w.scopes.declare place name type = .error (.nameTaken name) :=
    (h.declare_eq_error_iff hplace).2 ⟨rfl, hbinds⟩
  simp [declared, Workspace.after, Workspace.perform?, hplace, hrefused, Except.toOption]

/-- Two blocks are opened in a function, side by side, beside a global variable `x`.  A variable `x`
    of the first block and then one of the function are declared: the first block keeps its own, and
    the second sees that of the function, although it was opened before.  Another `x` in the
    function is refused. -/
theorem late_variable_seen_from_block :
    let ops : List ScopeOp :=
      [.program (.global "x" (some .bool)), .function, .enter 0 .local_, .enter 0 .local_,
        .declare 1 "x" (some .string), .declare 0 "x" (some .int)]
    let w := Workspace.run { program := .empty } ops
    w.places = [⟨none, 0, []⟩, ⟨none, 1, [0]⟩, ⟨none, 2, [0]⟩] ∧
      w.typeOf? ⟨none, 1, [0]⟩ "x" = some (some .string) ∧
      w.typeOf? ⟨none, 2, [0]⟩ "x" = some (some .int) ∧
      w.typeOf? ⟨none, 2, [0]⟩ "y" = none ∧
      w.scopes.declare ⟨none, 0, []⟩ "x" (some .bool) = .error (.nameTaken "x") := by
  intro ops w
  have hplaces : w.places = [⟨none, 0, []⟩, ⟨none, 1, [0]⟩, ⟨none, 2, [0]⟩] := by decide +kernel
  have hhistory : Workspace.history { program := .empty } ops =
      [.made none, .made (some 0), .made (some 0),
      .bound 1 "x" (some .string), .bound 0 "x" (some .int)] := by
    decide +kernel
  have hall := lexical_scoping .empty ops
  simp only [hhistory] at hall
  obtain ⟨chain₀, _, hnames₀⟩ := hall 0 ⟨none, 0, []⟩ (by decide +kernel)
  obtain ⟨chain₁, hchain₁, hnames₁⟩ := hall 1 ⟨none, 1, [0]⟩ (by decide +kernel)
  obtain ⟨chain₂, hchain₂, hnames₂⟩ := hall 2 ⟨none, 2, [0]⟩ (by decide +kernel)
  obtain rfl : [1, 0] = chain₁ := (hchain₁ _).1 (.inside rfl (.alone rfl))
  obtain rfl : [2, 0] = chain₂ := (hchain₂ _).1 (.inside rfl (.alone rfl))
  refine ⟨hplaces, ((hnames₁ "x").1 _).2 ⟨1, ⟨[], [0], rfl, by simp⟩, by simp⟩,
    ((hnames₂ "x").1 _).2 ⟨0, ⟨[2], [], rfl, by simp [Binds]⟩, by simp⟩,
    (hnames₂ "y").2.1.2 (by simp [Binds]), (((hnames₀ "x").2.2 _).1 _).2 ⟨rfl, some .int, by simp⟩⟩

end Decaf
