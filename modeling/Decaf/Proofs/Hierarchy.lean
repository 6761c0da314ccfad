import Decaf.Hierarchy
import Decaf.Proofs.Dict
import Mathlib.Data.List.Nodup
import Mathlib.Data.List.Perm.Subperm
import Mathlib.Data.List.TakeWhile
import Mathlib.Logic.Relation

namespace Decaf.Hierarchy

/-!
# Walks up a hierarchy

A walk through the parents is computed with a bound on its steps.  Here is the walk without a bound,
and the bound is shown to be none.  Off the cycles a walk ends at a class without a parent, and what
it passes is a line of classes that depends on nothing but the parents.

* `Walk` — the walk from a class, and `walk_trail`, that it is what `trail` computes.
* `Line` — the classes from a class up to one without a parent.
* `loops_trail_eq_false_iff` — a walk does not run into itself exactly if there is such a line.
* `ancestors_eq_of_line` — the ancestors of a class are the rest of its line.
* `Revisits` — parents lead from a class to one that is above itself, and `loops_trail_iff`, that
  this is just when a walk runs into itself.
* `ancestors_isPrefix`, `ancestors_congr` — what becomes of the ancestors when classes get parents.
* `mem_ancestors_iff` — the ancestors of a class are the other classes that parents lead to.
* `depth_lt_of_mem_ancestors` — an ancestor is less deep, but for classes that are above each other.
-/

variable {h : Hierarchy} {cls : String}

/-! ### The walk without a bound -/

/-- The walk from a class, after the classes in `seen`. -/
inductive Walk (h : Hierarchy) : (seen : List String) → (cls : String) → Trail → Prop
  /-- There is no parent to go on to. -/
  | stop {seen : List String} {cls : String} (hp : h.parent? cls = none) :
      Walk h seen cls ⟨[cls], false⟩
  /-- The parent has been seen. -/
  | loop {seen : List String} {cls a : String} (hp : h.parent? cls = some a)
      (ha : a ∈ cls :: seen) :
      Walk h seen cls ⟨[cls], true⟩
  | step {seen : List String} {cls a : String} {t : Trail} (hp : h.parent? cls = some a)
      (ha : a ∉ cls :: seen) (rest : Walk h (cls :: seen) a t) :
      Walk h seen cls ⟨cls :: t.classes, t.loops⟩

/-- There is one walk from a class. -/
theorem Walk.unique {seen : List String} {t u : Trail} (ht : h.Walk seen cls t)
    (hu : h.Walk seen cls u) : t = u := by
  induction ht generalizing u with
  | stop hp =>
    cases hu with
    | stop => rfl
    | loop hp' => simp [hp] at hp'
    | step hp' => simp [hp] at hp'
  | loop hp ha =>
    cases hu with
    | stop hp' => simp [hp] at hp'
    | loop => rfl
    | step hp' ha' =>
      -- both walks see the same parent, and agree on whether it has been seen
      obtain rfl : _ = _ := Option.some.inj (hp.symm.trans hp')
      exact absurd ha ha'
  | step hp ha _ ih =>
    cases hu with
    | stop hp' => simp [hp] at hp'
    | loop hp' ha' =>
      obtain rfl : _ = _ := Option.some.inj (hp.symm.trans hp')
      exact absurd ha' ha
    | step hp' _ rest =>
      obtain rfl : _ = _ := Option.some.inj (hp.symm.trans hp')
      rw [ih rest]

/-- The classes with a parent that a walk can still leave. -/
def unseen (h : Hierarchy) (seen : List String) : List String :=
  h.parents.keys.filter (· ∉ seen)

/-- Every step of a walk leaves fewer classes to leave. -/
theorem length_unseen_cons_lt {seen : List String} {a : String} (hp : h.parent? cls = some a)
    (hcls : cls ∉ seen) : (h.unseen (cls :: seen)).length < (h.unseen seen).length := by
  have hsplit : h.unseen (cls :: seen) = (h.unseen seen).filter (· ≠ cls) := by
    simp only [unseen, List.filter_filter, List.mem_cons, not_or, Bool.decide_and]
  have hmem : cls ∈ h.unseen seen := by
    have hkey : cls ∈ h.parents.keys := Dict.mem_keys_iff.2 ⟨a, hp⟩
    simp [unseen, hkey, hcls]
  rw [hsplit]
  exact List.length_filter_lt_length_iff_exists.2 ⟨cls, hmem, by simp⟩

/-- The bound on the steps is not reached if there are as many steps as classes that can be left. -/
theorem walk_trailFrom {steps : Nat} {seen : List String} (hcls : cls ∉ seen)
    (hsteps : (h.unseen seen).length ≤ steps) : h.Walk seen cls (h.trailFrom steps seen cls) := by
  induction steps generalizing seen cls with
  | zero =>
    cases hp : h.parent? cls with
    | none => exact .stop hp
    | some a =>
      -- the class itself is still unseen, and no step is left for it
      have hlt := length_unseen_cons_lt hp hcls
      omega
  | succ steps ih =>
    cases hp : h.parent? cls with
    | none =>
      rw [trailFrom, hp]
      exact .stop hp
    | some a =>
      rw [trailFrom, hp]
      by_cases ha : a ∈ cls :: seen
      · simp only [ha, if_true]
        exact .loop hp ha
      · -- one class fewer is unseen, and one step fewer is left
        have hlt := length_unseen_cons_lt hp hcls
        simp only [ha, if_false]
        exact .step hp ha (ih ha (by omega))

/-- **The computed walk.** `trail` is the walk from a class: the bound on its steps is never
    reached. -/
theorem walk_trail (h : Hierarchy) (cls : String) : h.Walk [] cls (h.trail cls) := by
  refine walk_trailFrom List.not_mem_nil ?_
  calc (h.unseen []).length ≤ h.parents.keys.length := List.length_filter_le _ _
    _ = h.parents.size := List.length_map _

/-! ### Lines -/

/-- The classes from a class up to one without a parent. -/
inductive Line (h : Hierarchy) : String → List String → Prop
  | top {cls : String} (hp : h.parent? cls = none) : Line h cls [cls]
  | up {cls a : String} {line : List String} (hp : h.parent? cls = some a) (rest : Line h a line) :
      Line h cls (cls :: line)

namespace Line

/-- There is one line from a class. -/
theorem unique {line other : List String} (hl : h.Line cls line) (ho : h.Line cls other) :
    line = other := by
  induction hl generalizing other with
  | top hp =>
    cases ho with
    | top => rfl
    | up hp' => simp [hp] at hp'
  | up hp _ ih =>
    cases ho with
    | top hp' => simp [hp] at hp'
    | up hp' rest =>
      obtain rfl : _ = _ := Option.some.inj (hp.symm.trans hp')
      rw [ih rest]

/-- A line starts with its class. -/
theorem eq_cons {line : List String} (hl : h.Line cls line) : ∃ rest, line = cls :: rest := by
  cases hl with
  | top => exact ⟨[], rfl⟩
  | up => exact ⟨_, rfl⟩

/-- A line is a line of every hierarchy in which its classes have the same parents. -/
theorem congr {g : Hierarchy} {line : List String} (hl : h.Line cls line)
    (hparent : ∀ a ∈ line, g.parent? a = h.parent? a) : g.Line cls line := by
  induction hl with
  | top hp => exact .top (by rw [hparent _ List.mem_cons_self, hp])
  | up hp hrest ih =>
    refine .up (by rw [hparent _ List.mem_cons_self, hp]) (ih fun a ha => hparent a ?_)
    exact List.mem_cons_of_mem _ ha

/-- The line from a class on a line is the end of that line. -/
theorem of_mem {line : List String} (hl : h.Line cls line) {a : String} (ha : a ∈ line) :
    ∃ rest, h.Line a rest ∧ rest <:+ line := by
  induction hl with
  | top hp =>
    obtain rfl := List.mem_singleton.1 ha
    exact ⟨[a], .top hp, List.suffix_rfl⟩
  | @up cls b line hp hrest ih =>
    rcases List.mem_cons.1 ha with rfl | ha
    · exact ⟨a :: line, .up hp hrest, List.suffix_rfl⟩
    · obtain ⟨rest, hline, hsuffix⟩ := ih ha
      exact ⟨rest, hline, hsuffix.trans (List.suffix_cons cls line)⟩

/-- No class comes up twice on a line. -/
theorem nodup {line : List String} (hl : h.Line cls line) : line.Nodup := by
  induction hl with
  | top => exact List.nodup_singleton _
  | @up cls a line hp hrest ih =>
    refine List.nodup_cons.2 ⟨fun hmem => ?_, ih⟩
    -- the line from a class that comes up again would be shorter than itself
    obtain ⟨rest, hline, hsuffix⟩ := hrest.of_mem hmem
    have heq : rest = cls :: line := hline.unique (.up hp hrest)
    have hle := hsuffix.length_le
    rw [heq, List.length_cons] at hle
    omega

/-- What stands above the first class of a line is a parent. -/
theorem exists_child {line : List String} (hl : h.Line cls line) {a : String} (ha : a ∈ line.tail) :
    ∃ c ∈ line, h.parent? c = some a := by
  induction hl with
  | top => cases ha
  | @up cls b line hp hrest ih =>
    obtain ⟨rest, rfl⟩ := hrest.eq_cons
    rcases List.mem_cons.1 ha with rfl | ha
    · exact ⟨cls, List.mem_cons_self, hp⟩
    · obtain ⟨c, hc, hpar⟩ := ih ha
      exact ⟨c, List.mem_cons_of_mem cls hc, hpar⟩

/-- The walk along a line does not run into itself. -/
theorem walk {line seen : List String} (hl : h.Line cls line) (hseen : ∀ a ∈ line, a ∉ seen) :
    h.Walk seen cls ⟨line, false⟩ := by
  induction hl generalizing seen with
  | top hp => exact .stop hp
  | @up cls a line hp hrest ih =>
    have hnodup : cls ∉ line := (List.nodup_cons.1 (nodup (.up hp hrest))).1
    have hrest' : ∀ b ∈ line, b ∉ cls :: seen := by
      intro b hb hmem
      rcases List.mem_cons.1 hmem with rfl | hmem
      · exact hnodup hb
      · exact hseen b (List.mem_cons_of_mem cls hb) hmem
    obtain ⟨rest, rfl⟩ := hrest.eq_cons
    exact .step hp (hrest' a List.mem_cons_self) (ih hrest')

end Line

/-- A walk that does not run into itself passes the line of its class. -/
theorem Walk.line {seen : List String} {t : Trail} (ht : h.Walk seen cls t)
    (hloops : t.loops = false) : h.Line cls t.classes := by
  induction ht with
  | stop hp => exact .top hp
  | loop => cases hloops
  | step hp _ _ ih => exact .up hp (ih hloops)

/-- The walk from a class with a line is that line. -/
theorem trail_eq_of_line {line : List String} (hl : h.Line cls line) :
    h.trail cls = ⟨line, false⟩ :=
  (walk_trail h cls).unique (hl.walk fun _ _ => List.not_mem_nil)

/-- **Off the cycles.** A walk does not run into itself exactly if its class has a line. -/
theorem loops_trail_eq_false_iff : (h.trail cls).loops = false ↔ ∃ line, h.Line cls line := by
  constructor
  · intro hloops
    exact ⟨_, (walk_trail h cls).line hloops⟩
  · rintro ⟨line, hl⟩
    rw [trail_eq_of_line hl]

/-- The ancestors of a class are the rest of its line, if the empty name is no parent. -/
theorem ancestors_eq_of_line (hempty : ∀ c, h.parent? c ≠ some "") {rest : List String}
    (hl : h.Line cls (cls :: rest)) : h.ancestors cls = rest := by
  have hne : ∀ a ∈ rest, a ≠ "" := by
    rintro a ha rfl
    obtain ⟨c, _, hp⟩ := hl.exists_child ha
    exact hempty c hp
  rw [ancestors, trail_eq_of_line hl, List.tail_cons, List.takeWhile_eq_self_iff]
  simpa using hne

/-! ### Coming back to a class -/

/-- The parents of a class: there is at most one. -/
def IsParent (h : Hierarchy) (cls a : String) : Prop :=
  h.parent? cls = some a

/-- Parents lead from the class, or from one above it, back to that class. -/
def Revisits (h : Hierarchy) (cls : String) : Prop :=
  ∃ a, Relation.ReflTransGen h.IsParent cls a ∧ Relation.TransGen h.IsParent a a

/-- What comes back from a parent comes back from its children. -/
theorem Revisits.of_parent {a : String} (hp : h.parent? cls = some a) (ha : h.Revisits a) :
    h.Revisits cls := by
  obtain ⟨b, hreach, hback⟩ := ha
  exact ⟨b, .head hp hreach, hback⟩

/-- A walk that runs into itself, or into a class from which it came, comes back to a class. -/
theorem Walk.revisits {seen : List String} {t : Trail} (ht : h.Walk seen cls t)
    (hseen : ∀ a ∈ seen, Relation.TransGen h.IsParent a cls) (hloops : t.loops) :
    h.Revisits cls := by
  induction ht with
  | stop => cases hloops
  -- the invariant of the induction: every class seen leads up to the current one
  | @loop seen cls a hp ha =>
    refine ⟨cls, .refl, ?_⟩
    rcases List.mem_cons.1 ha with rfl | ha
    · exact .single hp
    · exact .head hp (hseen a ha)
  | @step seen cls a t hp _ _ ih =>
    refine (ih (fun b hb => ?_) hloops).of_parent hp
    rcases List.mem_cons.1 hb with rfl | hb
    · exact .single hp
    · exact .tail (hseen b hb) hp

/-- Along a line no class comes up again. -/
theorem Line.not_revisits {line : List String} (hl : h.Line cls line) : ¬ h.Revisits cls := by
  induction hl with
  | @top cls hp =>
    -- there is no way on from the top, and so none back to it
    have hstop : ∀ a, ¬ h.IsParent cls a := fun a ha => nomatch hp.symm.trans ha
    rintro ⟨a, hreach, hback⟩
    rcases hreach.cases_head with rfl | ⟨b, hb, _⟩
    · obtain ⟨b, hb, _⟩ := Relation.TransGen.head'_iff.1 hback
      exact hstop b hb
    · exact hstop b hb
  | @up cls a line hp _ ih =>
    have hsole : ∀ b, h.IsParent cls b → b = a := fun b hb => Option.some.inj (hb.symm.trans hp)
    rintro ⟨b, hreach, hback⟩
    rcases hreach.cases_head with rfl | ⟨d, hd, hrest⟩
    · obtain ⟨d, hd, hrest⟩ := Relation.TransGen.head'_iff.1 hback
      exact ih ⟨cls, hsole d hd ▸ hrest, hback⟩
    · exact ih ⟨b, hsole d hd ▸ hrest, hback⟩

/-- **On the cycles, and below them.** A walk runs into itself exactly if its class is on a cycle or
    below one. -/
theorem loops_trail_iff : (h.trail cls).loops ↔ h.Revisits cls := by
  constructor
  · exact (walk_trail h cls).revisits (fun _ ha => absurd ha List.not_mem_nil)
  · intro hrevisits
    by_contra hloops
    obtain ⟨line, hl⟩ := loops_trail_eq_false_iff.1 (Bool.eq_false_iff.2 hloops)
    exact hl.not_revisits hrevisits

/-! ### Hierarchies with more parents -/

variable {g : Hierarchy} {seen : List String} {t u : Trail}

/-- A walk starts with its class. -/
theorem Walk.eq_cons (ht : h.Walk seen cls t) : ∃ rest, t.classes = cls :: rest := by
  cases ht with
  | stop => exact ⟨[], rfl⟩
  | loop => exact ⟨[], rfl⟩
  | step => exact ⟨_, rfl⟩

/-- Up to the empty name, a walk from a class that is not the empty name is the class and what it
    passes above it. -/
theorem Walk.takeWhile_classes (ht : h.Walk seen cls t) (hcls : cls ≠ "") :
    t.classes.takeWhile (· ≠ "") = cls :: t.classes.tail.takeWhile (· ≠ "") := by
  obtain ⟨rest, hrest⟩ := ht.eq_cons
  simp [hrest, hcls]

/-- Where classes without a parent get one, a walk may go on, but it starts as before. -/
theorem Walk.isPrefix (hmore : ∀ c, g.parent? c = h.parent? c ∨ h.parent? c = none)
    (ht : h.Walk seen cls t) (hu : g.Walk seen cls u) : t.classes <+: u.classes := by
  induction ht generalizing u with
  | @stop seen cls =>
    obtain ⟨rest, hrest⟩ := hu.eq_cons
    exact ⟨rest, hrest.symm⟩
  | @loop seen cls =>
    obtain ⟨rest, hrest⟩ := hu.eq_cons
    exact ⟨rest, hrest.symm⟩
  | @step seen cls a t hp ha _ ih =>
    -- where the smaller hierarchy goes on, the larger one goes the same way
    have hparent : g.parent? cls = some a := by
      rcases hmore cls with hsame | hnone
      · rw [hsame, hp]
      · rw [hp] at hnone
        cases hnone
    cases hu with
    | stop hp' => simp [hparent] at hp'
    | loop hp' ha' =>
      obtain rfl : _ = _ := Option.some.inj (hparent.symm.trans hp')
      exact absurd ha' ha
    | step hp' _ rest =>
      obtain rfl : _ = _ := Option.some.inj (hparent.symm.trans hp')
      exact List.cons_prefix_cons.2 ⟨rfl, ih rest⟩

/-- **More parents.** Where classes without a parent get one, ancestors are not lost. -/
theorem ancestors_isPrefix (hmore : ∀ c, g.parent? c = h.parent? c ∨ h.parent? c = none)
    (cls : String) : h.ancestors cls <+: g.ancestors cls := by
  obtain ⟨rest, hrest⟩ := (walk_trail h cls).isPrefix hmore (walk_trail g cls)
  obtain ⟨_, hstart⟩ := (walk_trail h cls).eq_cons
  have htail : (g.trail cls).classes.tail = (h.trail cls).classes.tail ++ rest := by
    rw [← hrest, List.tail_append_of_ne_nil (by simp [hstart])]
  rw [ancestors, ancestors, htail, List.takeWhile_append]
  split
  · rename_i hall
    rw [(List.takeWhile_prefix _).eq_of_length hall]
    exact List.prefix_append _ _
  · exact List.prefix_rfl

/-- Walks are the same up to the empty name, if what they pass until then has the same parents. -/
theorem Walk.takeWhile_eq (ht : h.Walk seen cls t) (hu : g.Walk seen cls u)
    (hsame : ∀ c ∈ cls :: t.classes.tail.takeWhile (· ≠ ""), g.parent? c = h.parent? c) :
    u.classes.tail.takeWhile (· ≠ "") = t.classes.tail.takeWhile (· ≠ "") := by
  induction ht generalizing u with
  | stop hp =>
    have hself := hsame _ List.mem_cons_self
    rw [hu.unique (.stop (hself.trans hp))]
  | loop hp ha =>
    have hself := hsame _ List.mem_cons_self
    rw [hu.unique (.loop (hself.trans hp) ha)]
  | @step seen cls a t hp ha ht ih =>
    have hself := hsame cls List.mem_cons_self
    obtain ⟨rest, hrest⟩ := ht.eq_cons
    cases hu with
    | stop hp' => simp [hself, hp] at hp'
    | loop hp' ha' =>
      rw [hself, hp, Option.some.injEq] at hp'
      exact absurd (hp' ▸ ha') ha
    | @step _ _ b u hp' _ hu =>
      rw [hself, hp, Option.some.injEq] at hp'
      subst hp'
      obtain ⟨rest', hrest'⟩ := hu.eq_cons
      by_cases hempty : a = ""
      · simp [hrest, hrest', hempty]
      · -- the parent is an ancestor, and the walk from there is the rest of this one
        have hfirst := ht.takeWhile_classes hempty
        have habove := ih hu fun c hc => hsame c (List.mem_cons_of_mem cls (hfirst ▸ hc))
        rw [List.tail_cons, List.tail_cons, hfirst, hu.takeWhile_classes hempty, habove]

/-- **The same parents.** The ancestors of a class stay the same if its parent and theirs do. -/
theorem ancestors_congr (hsame : ∀ c ∈ cls :: h.ancestors cls, g.parent? c = h.parent? c) :
    g.ancestors cls = h.ancestors cls :=
  (walk_trail h cls).takeWhile_eq (walk_trail g cls) hsame

/-! ### Ancestors by steps -/

/-- The parent of a class, where it is a class: the empty name is none. -/
def Extends (h : Hierarchy) (cls a : String) : Prop :=
  h.parent? cls = some a ∧ a ≠ ""

/-- No class comes up twice on a walk, and none that has been seen comes up again. -/
theorem Walk.nodup_append (ht : h.Walk seen cls t) (hcls : cls ∉ seen) (hseen : seen.Nodup) :
    (t.classes ++ seen).Nodup := by
  induction ht with
  | stop => exact List.nodup_cons.2 ⟨hcls, hseen⟩
  | loop => exact List.nodup_cons.2 ⟨hcls, hseen⟩
  | @step seen cls a t _ ha _ ih =>
    have hrest : (t.classes ++ cls :: seen).Nodup := ih ha (List.nodup_cons.2 ⟨hcls, hseen⟩)
    exact List.perm_middle.nodup_iff.1 hrest

/-- The ancestors of a class are different from it and from each other. -/
theorem nodup_cons_ancestors (h : Hierarchy) (cls : String) : (cls :: h.ancestors cls).Nodup := by
  obtain ⟨rest, hrest⟩ := (walk_trail h cls).eq_cons
  have hnodup := (walk_trail h cls).nodup_append List.not_mem_nil List.nodup_nil
  rw [List.append_nil, hrest] at hnodup
  rw [ancestors, hrest, List.tail_cons]
  exact hnodup.sublist ((List.takeWhile_sublist _).cons_cons cls)

/-- What a walk passes before the empty name is reached by steps from class to class. -/
theorem Walk.transGen_extends (ht : h.Walk seen cls t) {a : String}
    (ha : a ∈ t.classes.tail.takeWhile (· ≠ "")) : Relation.TransGen h.Extends cls a := by
  induction ht with
  | stop => cases ha
  | loop => cases ha
  | @step seen cls b t hp _ ht ih =>
    by_cases hempty : b = ""
    · obtain ⟨rest, hrest⟩ := ht.eq_cons
      simp [hrest, hempty] at ha
    · rw [List.tail_cons, ht.takeWhile_classes hempty] at ha
      rcases List.mem_cons.1 ha with rfl | ha
      · exact .single ⟨hp, hempty⟩
      · exact .head ⟨hp, hempty⟩ (ih ha)

/-- A step from a class of a walk leads to another, or to one that has been seen. -/
theorem Walk.mem_of_extends (ht : h.Walk seen cls t) {c a : String}
    (hc : c ∈ cls :: t.classes.tail.takeWhile (· ≠ "")) (ha : h.Extends c a) :
    a ∈ seen ∨ a ∈ cls :: t.classes.tail.takeWhile (· ≠ "") := by
  obtain ⟨hpar, hne⟩ := ha
  induction ht with
  | stop hp =>
    obtain rfl := List.mem_singleton.1 hc
    simp [hp] at hpar
  | loop hp hback =>
    -- the walk ends at a class that has been seen: the step leads there
    obtain rfl := List.mem_singleton.1 hc
    obtain rfl : _ = _ := Option.some.inj (hp.symm.trans hpar)
    rcases List.mem_cons.1 hback with rfl | hback
    · exact .inr List.mem_cons_self
    · exact .inl hback
  | @step seen cls b t hp _ ht ih =>
    rw [List.tail_cons] at hc ⊢
    rcases List.mem_cons.1 hc with rfl | hc
    · obtain rfl : b = a := Option.some.inj (hp.symm.trans hpar)
      rw [ht.takeWhile_classes hne]
      exact .inr (List.mem_cons_of_mem _ List.mem_cons_self)
    · -- behind an empty name there is nothing left of the walk
      have hempty : b ≠ "" := by
        rintro rfl
        obtain ⟨rest, hrest⟩ := ht.eq_cons
        simp [hrest] at hc
      rw [ht.takeWhile_classes hempty] at hc ⊢
      rcases ih hc with hseen | hmem
      · rcases List.mem_cons.1 hseen with rfl | hseen
        · exact .inr List.mem_cons_self
        · exact .inl hseen
      · exact .inr (List.mem_cons_of_mem cls hmem)

/-- **Ancestors.** The ancestors of a class are the other classes that parents lead to. -/
theorem mem_ancestors_iff {a : String} :
    a ∈ h.ancestors cls ↔ a ≠ cls ∧ Relation.TransGen h.Extends cls a := by
  constructor
  · intro ha
    refine ⟨?_, (walk_trail h cls).transGen_extends ha⟩
    rintro rfl
    exact (List.nodup_cons.1 (nodup_cons_ancestors h a)).1 ha
  · rintro ⟨hne, hreach⟩
    -- no step leads out of the class and its ancestors
    have hclosed : ∀ b, Relation.TransGen h.Extends cls b → b ∈ cls :: h.ancestors cls := by
      intro b hb
      induction hb with
      | single hstep =>
        exact ((walk_trail h cls).mem_of_extends List.mem_cons_self hstep).resolve_left
          List.not_mem_nil
      | tail _ hstep ih =>
        exact ((walk_trail h cls).mem_of_extends ih hstep).resolve_left List.not_mem_nil
    exact (List.mem_cons.1 (hclosed a hreach)).resolve_left hne

/-- **Depth.** An ancestor of a class is less deep than the class, unless the class is an ancestor
    of it as well. -/
theorem depth_lt_of_mem_ancestors {a : String} (ha : a ∈ h.ancestors cls)
    (hback : cls ∉ h.ancestors a) : h.depth a < h.depth cls := by
  obtain ⟨_, hreach⟩ := mem_ancestors_iff.1 ha
  -- with the ancestor itself, what is above it is above the class
  have hsubset : a :: h.ancestors a ⊆ h.ancestors cls := by
    refine List.cons_subset.2 ⟨ha, fun b hb => ?_⟩
    refine mem_ancestors_iff.2 ⟨?_, hreach.trans (mem_ancestors_iff.1 hb).2⟩
    rintro rfl
    exact hback hb
  exact (List.subperm_of_subset (nodup_cons_ancestors h a) hsubset).length_le

end Decaf.Hierarchy
