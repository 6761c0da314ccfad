import Decaf.Proofs.Typing.Exactness

namespace Decaf

/-!
# Well-formed trees

A tree that was not built to the end may lack parts, and a tree may hold an operator that does not
belong where it stands.  What is well-formed is said here for a whole tree at once, and without any
order in which to look at it.

* `TypeRef.WellFormed`, `Expr.WellFormed` — nothing is missing, and operators stand where they
  belong.
* `Expr.wellFormed_iff` — a tree is well-formed if its root is intact and its parts are well-formed.
* `Expr.WellFormed.pos?_ne_none` — a well-formed tree is somewhere.
* `Expr.Shows`, `Expr.Near` — the places in a node, and in the node and its parts.
-/

/-! ### Trees in which nothing is missing -/

/-- Nothing is missing in a written type, and its keyword is one. -/
inductive TypeRef.WellFormed : TypeRef → Prop
  | primitive {src : Origin} (h : src.literal ∈ ["int", "double", "bool", "string", "void"]) :
      WellFormed (.primitive src)
  | named {ref : ClassRef} {name : String} (h : ref.name = some name) : WellFormed (.named ref)
  | array {src : Origin} {elem : TypeRef} (h : WellFormed elem) : WellFormed (.array src elem)

/-- Nothing is missing in an expression, and its operators stand where they belong. -/
inductive Expr.WellFormed : Expr → Prop
  | leaf {id : NodeId} {src : Origin} {kind : Leaf} : WellFormed (.leaf id src kind)
  | minus {id : NodeId} {op : Token} {right : Expr} (hop : op.kind = .mark .minus)
      (hr : WellFormed right) : WellFormed (.compound id .arithmetic (some op) .absent right)
  | arithmetic {id : NodeId} {op : Token} {left right : Expr}
      (hop : op.kind ∈ [.mark .plus, .mark .minus, .mark .star, .mark .slash, .mark .percent])
      (hl : WellFormed left) (hr : WellFormed right) :
      WellFormed (.compound id .arithmetic (some op) left right)
  | relational {id : NodeId} {op : Token} {left right : Expr}
      (hop : op.kind ∈ [.mark .lt, .mark .le, .mark .gt, .mark .ge]) (hl : WellFormed left)
      (hr : WellFormed right) : WellFormed (.compound id .relational (some op) left right)
  | equality {id : NodeId} {op : Token} {left right : Expr} (hop : op.kind ∈ [.mark .eq, .mark .ne])
      (hl : WellFormed left) (hr : WellFormed right) :
      WellFormed (.compound id .equality (some op) left right)
  | not {id : NodeId} {op : Token} {right : Expr} (hop : op.kind = .mark .not)
      (hr : WellFormed right) : WellFormed (.compound id .logical (some op) .absent right)
  | logical {id : NodeId} {op : Token} {left right : Expr} (hop : op.kind ∈ [.mark .and, .mark .or])
      (hl : WellFormed left) (hr : WellFormed right) :
      WellFormed (.compound id .logical (some op) left right)
  | assignment {id : NodeId} {op : Token} {left right : Expr} (hop : op.kind = .mark .assign)
      (hl : WellFormed left) (hr : WellFormed right) :
      WellFormed (.compound id .assignment (some op) left right)
  | index {id : NodeId} {src : Origin} {base subscript : Expr} (hbase : WellFormed base)
      (hsub : WellFormed subscript) : WellFormed (.index id src base subscript)
  | field {id : NodeId} {base : Expr} {name : Ident} (hbase : WellFormed base) :
      WellFormed (.member id (.qualified base) (some name))
  | bareName {id : NodeId} {name : Ident} : WellFormed (.member id .unqualified (some name))
  | method {id : NodeId} {base : Expr} {name : Ident} {args : List Expr} (hbase : WellFormed base)
      (hargs : ∀ a ∈ args, WellFormed a) : WellFormed (.call id (.qualified base) (some name) args)
  | function {id : NodeId} {name : Ident} {args : List Expr} (hargs : ∀ a ∈ args, WellFormed a) :
      WellFormed (.call id .unqualified (some name) args)
  | new {id : NodeId} {src : Origin} {ref : ClassRef} {name : String}
      (hname : ref.name = some name) :
      WellFormed (.new id src (some ref))
  | newArray {id : NodeId} {src : Origin} {size : Expr} {elem : TypeRef} (hsize : WellFormed size)
      (helem : elem.WellFormed) : WellFormed (.newArray id src size elem)
  | step {id : NodeId} {op : Token} {operand : Expr} (hop : op.kind ∈ [.mark .inc, .mark .dec])
      (h : WellFormed operand) : WellFormed (.step id (some op) operand)

namespace Expr

/-- The types that are written in a node. -/
def written : Expr → List TypeRef
  | new _ _ (some ref) => [.named ref]
  | newArray _ _ _ elem => [elem]
  | _ => []

/-- What is well-formed is there. -/
theorem WellFormed.isMissing {e : Expr} (h : e.WellFormed) : e.isMissing = false := by
  cases h <;> rfl

/-- What is well-formed is not left out. -/
theorem WellFormed.isAbsent {e : Expr} (h : e.WellFormed) : e.isAbsent = false := by
  cases h <;> rfl

/-- A node is well-formed in itself: it has no flaw, and the types written in it have none. -/
def Intact (e : Expr) : Prop :=
  e.flaw? = none ∧ ∀ r ∈ e.written, r.WellFormed

/-- A node with two operands is intact if its operator belongs to its form and the operands are
    well-formed. -/
theorem intact_binary {id : NodeId} {form : Form} {op : Token} {left right : Expr}
    (hop : op.kind ∈ (form.operators false).map .mark) (hl : left.WellFormed)
    (hr : right.WellFormed) :
    (compound id form (some op) left right).Intact ∧
      ∀ s ∈ (compound id form (some op) left right).parts, s.WellFormed := by
  refine ⟨⟨flaw?_compound_eq_none_iff.2 ⟨?_, ⟨op, rfl, ?_⟩, hr.isMissing⟩, by simp [written]⟩, ?_⟩
  · simp [hl.isMissing]
  · rwa [hl.isAbsent]
  · simp [parts, hl.isAbsent, hl, hr]

/-- A node with a single operand is intact if its form allows it and its operator belongs there. -/
theorem intact_unary {id : NodeId} {form : Form} {op : Token} {right : Expr}
    (hform : form.mayBeUnary) (hop : op.kind ∈ (form.operators true).map .mark)
    (hr : right.WellFormed) :
    (compound id form (some op) .absent right).Intact ∧
      ∀ s ∈ (compound id form (some op) .absent right).parts, s.WellFormed := by
  refine ⟨⟨flaw?_compound_eq_none_iff.2 ⟨fun _ => hform, ⟨op, rfl, hop⟩, hr.isMissing⟩,
    by simp [written]⟩, ?_⟩
  simp [parts, isAbsent, hr]

/-- The root of a well-formed tree is intact, and its parts are well-formed. -/
theorem WellFormed.intact {e : Expr} (h : e.WellFormed) :
    e.Intact ∧ ∀ s ∈ e.parts, s.WellFormed := by
  cases h with
  | leaf => exact ⟨⟨rfl, by simp [written]⟩, by simp [parts]⟩
  | minus hop hr => exact intact_unary rfl (by simp [Form.operators, hop]) hr
  | arithmetic hop hl hr => exact intact_binary hop hl hr
  | relational hop hl hr => exact intact_binary hop hl hr
  | equality hop hl hr => exact intact_binary hop hl hr
  | not hop hr => exact intact_unary rfl (by simp [Form.operators, hop]) hr
  | logical hop hl hr => exact intact_binary hop hl hr
  | assignment hop hl hr => exact intact_binary (by simp [Form.operators, hop]) hl hr
  | index hbase hsub =>
    exact ⟨⟨by simp [flaw?, hbase.isMissing, hsub.isMissing], by simp [written]⟩,
      by simp [parts, hbase, hsub]⟩
  | field hbase =>
    exact ⟨⟨by simp [flaw?, receiverFlaw?, hbase.isMissing], by simp [written]⟩,
      by simp [parts, Receiver.parts, hbase]⟩
  | bareName => exact ⟨⟨rfl, by simp [written]⟩, by simp [parts, Receiver.parts]⟩
  | method hbase hargs =>
    exact ⟨⟨by simp [flaw?, receiverFlaw?, hbase.isMissing], by simp [written]⟩,
      by simpa [parts, Receiver.parts, hbase] using hargs⟩
  | function hargs => exact ⟨⟨rfl, by simp [written]⟩, by simpa [parts, Receiver.parts] using hargs⟩
  | new hname =>
    exact ⟨⟨by simp [flaw?, hname], by simpa [written] using .named hname⟩, by simp [parts]⟩
  | newArray hsize helem =>
    exact ⟨⟨by simp [flaw?, hsize.isMissing], by simpa [written] using helem⟩,
      by simpa [parts] using hsize⟩
  | step hop h =>
    have hflaw : ∀ node, operatorFlaw? (some _) node [.inc, .dec] = none :=
      fun node => operatorFlaw?_eq_none_iff.2 ⟨_, rfl, hop⟩
    exact ⟨⟨by simp [flaw?, hflaw, h.isMissing], by simp [written]⟩, by simpa [parts] using h⟩

/-- A compound is well-formed if it has no flaw and its operands are well-formed. -/
theorem wellFormed_compound {id : NodeId} {form : Form} {op : Option Token} {left right : Expr}
    (hflaw : (compound id form op left right).flaw? = none)
    (hparts : ∀ s ∈ (compound id form op left right).parts, s.WellFormed) :
    (compound id form op left right).WellFormed := by
  obtain ⟨hunary, ⟨token, rfl, hop⟩, _⟩ := flaw?_compound_eq_none_iff.1 hflaw
  cases hleft : left.isAbsent with
  | true =>
    obtain rfl : left = .absent := by cases left <;> first | rfl | cases hleft
    have hr : right.WellFormed := hparts right (by simp [parts, isAbsent])
    cases form with
    | arithmetic => exact .minus (by simpa [Form.operators, isAbsent] using hop) hr
    | logical => exact .not (by simpa [Form.operators, isAbsent] using hop) hr
    | _ => cases hunary rfl
  | false =>
    rw [hleft] at hop
    have hl : left.WellFormed := hparts left (by simp [parts, hleft])
    have hr : right.WellFormed := hparts right (by simp [parts, hleft])
    cases form with
    | arithmetic => exact .arithmetic hop hl hr
    | relational => exact .relational hop hl hr
    | equality => exact .equality hop hl hr
    | logical => exact .logical hop hl hr
    | assignment => exact .assignment (by simpa [Form.operators] using hop) hl hr

/-- **Well-formed trees, node by node.** A tree is well-formed if its root is intact and its parts
    are well-formed. -/
theorem wellFormed_iff {e : Expr} : e.WellFormed ↔ e.Intact ∧ ∀ s ∈ e.parts, s.WellFormed := by
  refine ⟨WellFormed.intact, fun ⟨⟨hflaw, hwritten⟩, hparts⟩ => ?_⟩
  -- a node with a hole in it has a flaw; what else is read off are the constructors, one for each
  -- kind of node
  cases e with
  | absent => cases hflaw
  | hollow => cases hflaw
  | leaf => exact .leaf
  | compound => exact wellFormed_compound hflaw hparts
  | index => exact .index (hparts _ (by simp [parts])) (hparts _ (by simp [parts]))
  | member id recv name =>
    cases name with
    | none => cases hflaw
    | some name =>
      cases recv with
      | qualified base => exact .field (hparts base (by simp [parts, Receiver.parts]))
      | unqualified => exact .bareName
      | hollow => cases hflaw
      | absent => cases hflaw
  | call id recv name args =>
    cases name with
    | none => cases hflaw
    | some name =>
      cases recv with
      | qualified base =>
        exact .method (hparts base (by simp [parts, Receiver.parts])) fun a ha =>
          hparts a (by simp [parts, ha])
      | unqualified => exact .function hparts
      | hollow => cases hflaw
      | absent => cases hflaw
  | new id src cls =>
    cases cls with
    | none => cases hflaw
    | some ref =>
      have href : TypeRef.WellFormed (.named ref) := hwritten _ (by simp [written])
      cases href with
      | named hname => exact .new hname
  | newArray => exact .newArray (hparts _ (by simp [parts])) (hwritten _ (by simp [written]))
  | step id op operand =>
    cases hop : operatorFlaw? op "postfix expression" [.inc, .dec] with
    | some flaw => simp [flaw?, hop] at hflaw
    | none =>
      obtain ⟨token, rfl, hkind⟩ := operatorFlaw?_eq_none_iff.1 hop
      exact .step hkind (hparts _ (by simp [parts]))

/-! ### Places that are there -/

/-- A node is somewhere if it has no flaw and its parts are somewhere. -/
theorem pos?_ne_none {e : Expr} (hflaw : e.flaw? = none) (hparts : ∀ s ∈ e.parts, s.pos? ≠ none) :
    e.pos? ≠ none := by
  cases e with
  | absent => cases hflaw
  | hollow => cases hflaw
  | compound id form op left right =>
    obtain ⟨_, ⟨token, rfl, _⟩, _⟩ := flaw?_compound_eq_none_iff.1 hflaw
    cases hleft : left.isAbsent with
    | true => simp [pos?, hleft]
    | false =>
      rw [pos?, hleft]
      exact hparts left (by simp [parts, hleft])
  | member id recv name =>
    cases name with
    | none => cases hflaw
    | some name => exact Option.some_ne_none _
  | call id recv name args =>
    cases name with
    | none => cases hflaw
    | some name => exact Option.some_ne_none _
  | step id op operand => exact hparts operand (by simp [parts])
  | _ => exact Option.some_ne_none _

/-- A well-formed tree is somewhere. -/
theorem WellFormed.pos?_ne_none {e : Expr} (he : e.WellFormed) : e.pos? ≠ none := by
  induction e using Expr.induction_parts with
  | h e ih =>
    obtain ⟨⟨hflaw, _⟩, hparts⟩ := wellFormed_iff.1 he
    exact Expr.pos?_ne_none hflaw fun s hs => ih s hs (hparts s hs)

end Expr

/-- A written type, or the type of the elements in it, stands at `pos`. -/
def TypeRef.Shows (pos : Position) : TypeRef → Prop
  | missing => False
  | primitive src => src.pos = pos
  | named ref => ref.src.pos = pos
  | array src elem => src.pos = pos ∨ elem.Shows pos

namespace Expr

/-- The node, or a type that is written in it, stands at `pos`. -/
def Shows (pos : Position) (e : Expr) : Prop :=
  e.pos? = some pos ∨ ∃ r ∈ e.written, r.Shows pos

/-- The node, or a part of it, shows `pos`. -/
def Near (e : Expr) (pos : Position) : Prop :=
  ∃ s : Expr, (s = e ∨ s ∈ e.parts) ∧ s.Shows pos

variable {e : Expr} {pos : Position}

theorem pos?_eq_some_pos (h : e.pos? ≠ none) : e.pos? = some e.pos := by
  obtain ⟨q, hq⟩ := Option.ne_none_iff_exists'.1 h
  rw [Expr.pos, hq, Option.getD_some]

theorem near_self (h : e.pos? ≠ none) : e.Near e.pos :=
  ⟨e, .inl rfl, .inl (pos?_eq_some_pos h)⟩

theorem near_part {s : Expr} (hs : s ∈ e.parts) (h : s.pos? ≠ none) : e.Near s.pos :=
  ⟨s, .inr hs, .inl (pos?_eq_some_pos h)⟩

theorem near_written {r : TypeRef} (hr : r ∈ e.written) (h : r.Shows pos) : e.Near pos :=
  ⟨e, .inl rfl, .inr ⟨r, hr, h⟩⟩

end Expr

end Decaf
