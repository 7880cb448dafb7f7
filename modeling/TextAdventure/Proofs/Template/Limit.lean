import TextAdventure.Proofs.Template.Safety

/-!
# Evaluation and its limit

The limit on calls inside calls can only cut an outcome off.  With a larger limit a
tree has the same outcome, unless the smaller limit was met (`approximates_of_le`),
and a limit of the nesting of the tree is never met.  So every tree has one outcome
without a limit (`evaluateFully`), and with a limit it has that outcome or the error
that says that the limit was met (`approximates_fully`).
-/

namespace TextAdventure.Template

variable {α : Type}

/-! ## Outcomes that are cut off -/

/-- The first outcome is the second one, unless the limit has cut it off. -/
def Approximates (short full : Except EvalError α) : Prop :=
  short = .error .tooDeep ∨ short = full

theorem Mirrors.approximates {good : α → Prop} {shared : EvalError → Prop}
    {short full : Except EvalError α} (h : Mirrors good shared (· = .tooDeep) short full) :
    Approximates short full := by
  cases h with
  | value _ => exact .inr rfl
  | error _ => exact .inr rfl
  | excused hcut full => exact .inl (congrArg Except.error hcut)

/-! ## Larger limits -/

variable (w : World)

/-- A larger limit changes no outcome that was not cut off. -/
theorem approximates_of_le {depth depth' : Nat} (h : depth ≤ depth') (n : Node) :
    Approximates (evaluateWithin w depth n) (evaluateWithin w depth' n) := by
  have hnames : ∀ token ∈ n.tokens, Mirrors (Value.IsWithin fun _ => True) (fun _ => True)
      (· = .tooDeep) (evaluateName w token) (evaluateName w token) := fun token _ =>
    mirrors_evaluateName (fun _ _ => trivial) (fun _ _ hid => ⟨trivial, hid⟩) .inl
  have hmirrors := mirrors_evaluateWithin (fun _ _ => trivial) (.refl _ w) h hnames
    (.inr trivial) (.inl rfl)
  exact hmirrors.approximates

/-- A limit of the nesting of a tree is never met. -/
theorem evaluateWithin_ne_tooDeep {depth : Nat} {n : Node} (h : n.callDepth ≤ depth) :
    evaluateWithin w depth n ≠ .error .tooDeep := by
  intro hdeep
  have hyields : Yields (Value.IsProper w) (· ≠ .tooDeep) (evaluateWithin w depth n) :=
    yields_evaluateWithin (by rintro e he rfl; cases he) depth (.inr EvalError.noConfusion) (.inl h)
  rw [hdeep] at hyields
  exact hyields rfl

/-! ## No limit -/

/-- The outcome of a tree where calls inside calls are not limited. -/
def evaluateFully (n : Node) : Result := evaluateWithin w n.callDepth n

theorem evaluateFully_ne_tooDeep (n : Node) : evaluateFully w n ≠ .error .tooDeep :=
  evaluateWithin_ne_tooDeep w (Nat.le_refl _)

theorem evaluateWithin_eq_fully {depth : Nat} {n : Node} (h : n.callDepth ≤ depth) :
    evaluateWithin w depth n = evaluateFully w n :=
  ((approximates_of_le w h n).resolve_left (evaluateFully_ne_tooDeep w n)).symm

/-- With a limit the outcome is the one without, unless the limit is met. -/
theorem approximates_fully (depth : Nat) (n : Node) :
    Approximates (evaluateWithin w depth n) (evaluateFully w n) := by
  rcases Nat.le_total depth n.callDepth with h | h
  · exact approximates_of_le w h n
  · exact .inr (evaluateWithin_eq_fully w h)

/-- A value that is found with a limit is the value. -/
theorem evaluateFully_of_within {depth : Nat} {n : Node} {v : Value}
    (h : evaluateWithin w depth n = .ok v) : evaluateFully w n = .ok v := by
  have happrox := approximates_fully w depth n
  rw [h] at happrox
  exact (happrox.resolve_left fun hcut => by cases hcut).symm

end TextAdventure.Template
