import Mathlib.Data.List.Forall2

namespace Decaf

/-!
# Running stages that may fail

Checking an expression and generating a module are computations of one kind: each step may fail, and
what was made before the failure is kept.  Such a step takes a state to an outcome and a new state.

* `run_bind` — a step after another starts in the state that the other one left.
* `run_bind_congr`, `forM_congr` — when sequences, or loops, can take each other's place.
* `forM_induction` — what every step of a successful loop keeps holds at its end.
* `run_bind_error`, `run_forM_error` — where a sequence, or a loop, has failed.
* `collect_eq_ok_iff`, `exists_of_collect_error`, `exists_of_forall₂` — results that are collected
  one by one.
-/

variable {ε σ α β γ : Type}

/-- **Sequencing.** The second step runs in the state that the first one left, unless the first one
    failed. -/
theorem run_bind (x : ExceptT ε (StateM σ) α) (f : α → ExceptT ε (StateM σ) β) (s : σ) :
    (x >>= f).run s =
      match x.run s with
      | (.error e, s) => (.error e, s)
      | (.ok a, s) => (f a).run s := by
  rw [ExceptT.run_bind]
  show StateT.bind x.run _ s = _
  unfold StateT.bind
  show (match x.run s with | (a, s') => _) = _
  rcases x.run s with ⟨_ | _, _⟩ <;> rfl

@[simp] theorem run_get (s : σ) : (get : ExceptT ε (StateM σ) σ).run s = (.ok s, s) := rfl

@[simp] theorem run_modify (f : σ → σ) (s : σ) :
    (modify f : ExceptT ε (StateM σ) Unit).run s = (.ok (), f s) := rfl

/-- A sequence that succeeds is two steps that succeed. -/
theorem run_bind_ok {x : ExceptT ε (StateM σ) α} {f : α → ExceptT ε (StateM σ) β} {s s' : σ} {b : β}
    (h : (x >>= f).run s = (.ok b, s')) :
    ∃ a s₁, x.run s = (.ok a, s₁) ∧ (f a).run s₁ = (.ok b, s') := by
  rw [run_bind] at h
  rcases hx : x.run s with ⟨e | a, s₁⟩
  · rw [hx] at h
    cases h
  · rw [hx] at h
    exact ⟨a, s₁, rfl, h⟩

/-- **Replacing steps.** Two sequences run alike if their first steps do, and if their second steps
    do in the state that a first step that succeeds has left. -/
theorem run_bind_congr {x y : ExceptT ε (StateM σ) α} {f h : α → ExceptT ε (StateM σ) β} {s : σ}
    (hx : x.run s = y.run s)
    (hf : ∀ a s', y.run s = (.ok a, s') → (f a).run s' = (h a).run s') :
    (x >>= f).run s = (y >>= h).run s := by
  rw [run_bind, run_bind, hx]
  rcases hy : y.run s with ⟨e | a, s'⟩
  · rfl
  · exact hf a s' hy

/-- Loops whose steps are equal are equal. -/
theorem forM_congr {f h : α → ExceptT ε (StateM σ) Unit} {xs : List α}
    (hstep : ∀ x ∈ xs, f x = h x) : xs.forM f = xs.forM h := by
  induction xs with
  | nil => rfl
  | cons x xs ih =>
    obtain ⟨hx, hxs⟩ := List.forall_mem_cons.1 hstep
    show (f x >>= fun _ => xs.forM f) = (h x >>= fun _ => xs.forM h)
    rw [hx, ih hxs]

/-- Whether a step without a value succeeds can be computed. -/
theorem run_eq_of_toBool {x : ExceptT ε (StateM σ) Unit} {s : σ} (h : (x.run s).1.toBool) :
    x.run s = (.ok (), (x.run s).2) := by
  rcases hx : x.run s with ⟨e | _, s'⟩
  · rw [hx] at h
    cases h
  · rfl

/-- **Induction along a loop.** What holds before a loop over `xs`, and is kept by every step of it,
    holds after the loop.  It may speak about the elements that have been treated. -/
theorem forM_induction {f : α → ExceptT ε (StateM σ) Unit} {xs : List α} {s s' : σ}
    (P : List α → σ → Prop) (h : (xs.forM f).run s = (.ok (), s')) (hstart : P [] s)
    (hstep : ∀ done x rest t t', xs = done ++ x :: rest → P done t → (f x).run t = (.ok (), t') →
      P (done ++ [x]) t') : P xs s' := by
  -- the loop over what is left, after the elements `done`
  suffices hrest : ∀ rest done t, xs = done ++ rest → P done t →
      (rest.forM f).run t = (.ok (), s') → P xs s' from hrest xs [] s rfl hstart h
  intro rest
  induction rest with
  | nil =>
    intro done t hxs hP hrun
    cases hrun
    rwa [hxs, List.append_nil]
  | cons x rest ih =>
    intro done t hxs hP hrun
    obtain ⟨_, t₁, hx, hrest⟩ := run_bind_ok hrun
    refine ih (done ++ [x]) t₁ (by rw [hxs, List.append_assoc]; rfl) ?_ hrest
    exact hstep done x rest t t₁ hxs hP hx

/-- A sequence that fails fails in its first step, or in the second after the first has
    succeeded. -/
theorem run_bind_error {x : ExceptT ε (StateM σ) α} {f : α → ExceptT ε (StateM σ) β}
    {s s' : σ} {e : ε} (h : (x >>= f).run s = (.error e, s')) :
    x.run s = (.error e, s') ∨ ∃ a s₁, x.run s = (.ok a, s₁) ∧ (f a).run s₁ = (.error e, s') := by
  rw [run_bind] at h
  rcases hx : x.run s with ⟨e' | a, s₁⟩
  · rw [hx] at h
    cases h
    exact .inl rfl
  · rw [hx] at h
    exact .inr ⟨a, s₁, rfl, h⟩

/-- **Where a loop fails.** A loop that fails fails at one of its elements, after it has succeeded
    for those before. -/
theorem run_forM_error {f : α → ExceptT ε (StateM σ) Unit} {xs : List α} {s s' : σ} {e : ε}
    (h : (xs.forM f).run s = (.error e, s')) :
    ∃ done x rest t, xs = done ++ x :: rest ∧ (done.forM f).run s = (.ok (), t) ∧
      (f x).run t = (.error e, s') := by
  induction xs generalizing s with
  | nil => cases h
  | cons x xs ih =>
    rcases run_bind_error h with hx | ⟨_, s₁, hx, hrest⟩
    · exact ⟨[], x, xs, s, rfl, rfl, hx⟩
    · obtain ⟨done, y, rest, t, rfl, hdone, hy⟩ := ih hrest
      refine ⟨x :: done, y, rest, t, rfl, ?_, hy⟩
      show (f x >>= fun _ => done.forM f).run s = _
      rw [run_bind, hx]
      exact hdone

/-- **Collecting.** A function that goes through a list and fails at the first element without a
    result succeeds exactly if all elements have one.  How an element shows its result, as `some` or
    as `ok`, is left open. -/
theorem collect_eq_ok_iff (collect : List α → Except ε (List β)) {outcome : α → γ} {result : β → γ}
    (hnil : collect [] = .ok [])
    (hcons : ∀ a as bs, collect (a :: as) = .ok bs ↔
      ∃ b bs', outcome a = result b ∧ collect as = .ok bs' ∧ bs = b :: bs')
    (as : List α) (bs : List β) : collect as = .ok bs ↔ as.map outcome = bs.map result := by
  induction as generalizing bs with
  | nil =>
    rw [hnil]
    cases bs with
    | nil => simp
    | cons b bs => simp
  | cons a as ih =>
    rw [hcons]
    constructor
    · rintro ⟨b, bs', hb, hbs', rfl⟩
      rw [List.map_cons, List.map_cons, hb, (ih bs').1 hbs']
    · intro h
      cases bs with
      | nil => cases h
      | cons b bs =>
        rw [List.map_cons, List.map_cons, List.cons.injEq] at h
        exact ⟨b, bs, h.1, (ih bs).2 h.2, rfl⟩

/-- A function that goes through a list and fails has failed at one of the elements. -/
theorem exists_of_collect_error (collect : List α → Except ε β) {bad : α → Prop} {e : ε}
    (hnil : collect [] ≠ .error e)
    (hcons : ∀ a as, collect (a :: as) = .error e → bad a ∨ collect as = .error e) {as : List α}
    (h : collect as = .error e) : ∃ a ∈ as, bad a := by
  induction as with
  | nil => exact absurd h hnil
  | cons a as ih =>
    rcases hcons a as h with hbad | hrest
    · exact ⟨a, List.mem_cons_self, hbad⟩
    · obtain ⟨b, hb, hbad⟩ := ih hrest
      exact ⟨b, List.mem_cons_of_mem a hb, hbad⟩

/-- Of two lists in step, each element of the first has one of the second. -/
theorem exists_of_forall₂ {R : α → β → Prop} {as : List α} {bs : List β}
    (h : List.Forall₂ R as bs) {a : α} (ha : a ∈ as) : ∃ b ∈ bs, R a b := by
  induction h with
  | nil => cases ha
  | cons hab _ ih =>
    rcases List.mem_cons.1 ha with rfl | ha
    · exact ⟨_, List.mem_cons_self, hab⟩
    · obtain ⟨b, hb, hab⟩ := ih ha
      exact ⟨b, List.mem_cons_of_mem _ hb, hab⟩

end Decaf
