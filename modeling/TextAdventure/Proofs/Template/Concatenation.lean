import TextAdventure.Template.Evaluation

/-!
# Concatenation

A sequence is evaluated segment by segment, and every segment has to be a text.
Each part of a sequence counts as an operand of that concatenation (`operand`), also
when it is a template of one segment, whose value need not be a text.  A part is as
an operand what its own segments are, put together (`operand_evaluateStep`), so the
first part that is no operand decides how the whole fails.
-/

namespace TextAdventure.Template

/-! ## Operands -/

/-- What a value contributes as an operand of a concatenation. -/
def operand : Result → Except EvalError String
  | .ok (.text content) => .ok content
  | .ok _ => .error .notConcatenable
  | .error e => .error e

theorem concatenate_append (evaluate : Node → Result) (ns ms : List Node) :
    concatenate evaluate (ns ++ ms) = (do
      let before ← concatenate evaluate ns
      let behind ← concatenate evaluate ms
      return before ++ behind) := by
  induction ns with
  | nil =>
    rw [List.nil_append]
    cases concatenate evaluate ms with
    | error e => rfl
    | ok behind => simp [concatenate, bind, Except.bind, pure, Except.pure]
  | cons n ns ih =>
    simp only [List.cons_append, concatenate, ih]
    cases evaluate n with
    | error e => rfl
    | ok value =>
      cases value with
      | text content =>
        cases concatenate evaluate ns with
        | error e => rfl
        | ok before =>
          cases concatenate evaluate ms with
          | error e => rfl
          | ok behind => simp [bind, Except.bind, pure, Except.pure, String.append_assoc]
      | _ => rfl

/-! ## Sequences -/

/-- As an operand every tree is the concatenation of its segments. -/
theorem operand_evaluateStep (w : World) (below : Node → Result) (n : Node) :
    operand (evaluateStep w below n) = concatenate (evaluateSegment w below) n.segments := by
  have hsingle : n.parts = [n] → evaluateStep w below n = evaluateSegment w below n →
      operand (evaluateStep w below n) = concatenate (evaluateSegment w below) n.segments := by
    intro hparts heval
    rw [Node.segments_eq_parts, hparts, heval]
    cases h : evaluateSegment w below n with
    | error e => simp [concatenate, h, operand, bind, Except.bind]
    | ok value =>
      cases value <;> simp [concatenate, h, operand, bind, Except.bind, pure, Except.pure]
  cases n with
  | empty => rw [Node.segments_eq_parts]; rfl
  | sequence l r =>
    simp only [evaluateStep]
    cases concatenate (evaluateSegment w below) (Node.sequence l r).segments <;> rfl
  | _ => exact hsingle rfl rfl

/-- A sequence is evaluated from left to right, each part as an operand. -/
theorem evaluateStep_sequence (w : World) (below : Node → Result) (l r : Node) :
    evaluateStep w below (.sequence l r) = (do
      let before ← operand (evaluateStep w below l)
      let behind ← operand (evaluateStep w below r)
      return .text (before ++ behind)) := by
  rw [operand_evaluateStep, operand_evaluateStep, evaluateStep, Node.segments_eq_parts,
    Node.segments_eq_parts, Node.segments_eq_parts, Node.parts, concatenate_append]
  cases concatenate (evaluateSegment w below) l.parts with
  | error e => rfl
  | ok before => cases concatenate (evaluateSegment w below) r.parts <;> rfl

theorem evaluateWithin_sequence (w : World) (depth : Nat) (l r : Node) :
    evaluateWithin w depth (.sequence l r) = (do
      let before ← operand (evaluateWithin w depth l)
      let behind ← operand (evaluateWithin w depth r)
      return .text (before ++ behind)) := by
  cases depth <;> exact evaluateStep_sequence w _ l r

theorem evaluate_eq_step (w : World) : ∃ below, ∀ n, evaluate w n = evaluateStep w below n :=
  ⟨evaluateWithin w (maxCallDepth - 1), fun _ => rfl⟩

/-- A sequence is evaluated as its parts are, from left to right, each as an operand. -/
theorem evaluate_of_segments_append {w : World} {l r n m : Node}
    (h : (Node.sequence l r).segments = n.segments ++ m.segments) :
    evaluate w (.sequence l r) = (do
      let before ← operand (evaluate w n)
      let behind ← operand (evaluate w m)
      return .text (before ++ behind)) := by
  obtain ⟨below, heval⟩ := evaluate_eq_step w
  rw [heval, heval, heval, operand_evaluateStep, operand_evaluateStep, evaluateStep, h,
    concatenate_append]
  cases concatenate (evaluateSegment w below) n.segments with
  | error e => rfl
  | ok before => cases concatenate (evaluateSegment w below) m.segments <;> rfl

end TextAdventure.Template
