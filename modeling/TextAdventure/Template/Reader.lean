import TextAdventure.Template.Expression
import TextAdventure.Template.Source

/-!
# Reading templates

A template is cut into segments: the runs of text without a sigil, which are
literals, and the expressions, each behind a sigil.  Its tree nests sequences of
the segments to the left, one segment is its own tree, and no segment gives the
empty template.

Only calls inside calls are limited, to `maxOpenCalls` at once.  Neither the
number of segments nor that of arguments is.  Where reading an expression
overflows, the template is reported to be nested too deeply.
-/

namespace TextAdventure.Template

/-- Decide whether a character belongs to literal text. -/
def isLiteral (c : Char) : Bool := c ≠ sigil

/-- Cut a template into its segments, with at most `limit` calls open at once. -/
def readSegments (limit : Nat) : List Char → Except Failure (List Node)
  | [] => .ok []
  | c :: cs =>
      if c = sigil then
        match _h : Reader.start.read limit cs with
        | .error e => .error e
        | .ok (n, rest) => (readSegments limit rest).map (n :: ·)
      else
        (readSegments limit (cs.dropWhile isLiteral)).map
          (.literal (String.ofList (c :: cs.takeWhile isLiteral)) :: ·)
termination_by cs => cs.length
decreasing_by
  · have := (Reader.suffix_of_read _h).length_le
    simp only [List.length_cons]; omega
  · have := (List.dropWhile_suffix isLiteral (l := cs)).length_le
    simp only [List.length_cons]; omega

/-! ## One segment at a time -/

@[simp] theorem readSegments_nil (limit : Nat) : readSegments limit [] = .ok [] := by
  rw [readSegments]

theorem readSegments_literal (limit : Nat) {c : Char} (h : c ≠ sigil) (cs : List Char) :
    readSegments limit (c :: cs) =
      (readSegments limit (cs.dropWhile isLiteral)).map
        (.literal (String.ofList (c :: cs.takeWhile isLiteral)) :: ·) := by
  rw [readSegments, if_neg h]

theorem readSegments_of_read {limit : Nat} {cs rest : List Char} {n : Node}
    (h : Reader.start.read limit cs = .ok (n, rest)) :
    readSegments limit (sigil :: cs) = (readSegments limit rest).map (n :: ·) := by
  rw [readSegments, if_pos rfl]
  split
  · next e he => rw [h] at he; cases he
  · next m rest' he =>
    rw [h, Except.ok.injEq, Prod.mk.injEq] at he
    rw [he.1, he.2]

theorem readSegments_of_read_error {limit : Nat} {cs : List Char} {e : Failure}
    (h : Reader.start.read limit cs = .error e) :
    readSegments limit (sigil :: cs) = .error e := by
  rw [readSegments, if_pos rfl]
  split
  · next e' he => rw [h] at he; cases he; rfl
  · next m rest he => rw [h] at he; cases he

/-! ## Parsing -/

/-- Why and where a text is not a template. -/
structure ParseError where
  /-- The fault. -/
  fault : Fault
  /-- How many characters come before the place of the fault. -/
  position : Nat
deriving DecidableEq, Repr

/-- What is said about a text that is not a template. -/
def ParseError.message (e : ParseError) : String := e.fault.message

/-! ## Expressions at a cursor -/

/-- How reading an expression of a template fails. -/
inductive ExpressionError where
  /-- There is no room for so many open calls. -/
  | overflow
  /-- The text is no template. -/
  | malformed (e : ParseError)
deriving DecidableEq, Repr

/-- Read the expression at a cursor, and move the cursor behind it. -/
def Cursor.readExpression (limit : Nat) (c : Cursor) : Except ExpressionError (Node × Cursor) :=
  match Reader.start.read limit c.ahead with
  | .error (.overflow _) => .error .overflow
  | .error (.malformed fault rest) => .error (.malformed ⟨fault, c.text.length - rest.length⟩)
  | .ok (n, rest) => .ok (n, c.advance (c.ahead.length - rest.length))

theorem Cursor.readExpression_eq_overflow_iff {limit : Nat} {c : Cursor} :
    c.readExpression limit = .error .overflow ↔
      ∃ rest, Reader.start.read limit c.ahead = .error (.overflow rest) := by
  unfold Cursor.readExpression
  cases Reader.start.read limit c.ahead with
  | error e => cases e <;> simp
  | ok p => simp

theorem Cursor.readExpression_eq_ok_iff {limit : Nat} {c d : Cursor} {n : Node} :
    c.readExpression limit = .ok (n, d) ↔
      d.text = c.text ∧ Reader.start.read limit c.ahead = .ok (n, d.ahead) := by
  -- What is left is an end of what was ahead, so moving on by the rest of it leads there.
  have hahead : ∀ {m : Node} {rest : List Char}, Reader.start.read limit c.ahead = .ok (m, rest) →
      (c.advance (c.ahead.length - rest.length)).ahead = rest := by
    intro m rest h
    rw [Cursor.ahead_advance, ← List.suffix_iff_eq_drop.mp (Reader.suffix_of_read h)]
  unfold Cursor.readExpression
  constructor
  · intro h
    split at h
    · cases h
    · cases h
    · next m rest hread =>
      rw [Except.ok.injEq, Prod.mk.injEq] at h
      obtain ⟨rfl, rfl⟩ := h
      rw [Cursor.text_advance, hread, hahead hread]
      exact ⟨rfl, rfl⟩
  · rintro ⟨htext, hread⟩
    simp only [hread, Except.ok.injEq, Prod.mk.injEq, true_and]
    exact Cursor.eq_of_text (by rw [Cursor.text_advance, htext]) (hahead hread)

/-- An expression of a template is read at the cursor behind its sigil. -/
theorem readSegments_of_readExpression {limit : Nat} {c d : Cursor} {n : Node}
    (h : c.readExpression limit = .ok (n, d)) :
    readSegments limit (sigil :: c.ahead) = (readSegments limit d.ahead).map (n :: ·) :=
  readSegments_of_read (Cursor.readExpression_eq_ok_iff.mp h).2

/-! ## Templates -/

/-- What is reported of a failure.  An overflow becomes a fault of the text. -/
def Failure.fault : Failure → Fault
  | .overflow _ => .tooDeep
  | .malformed fault _ => fault

/-- The most calls that may be open at once in a template.  An open call takes two frames, one for
the expression that it is and one for its arguments. -/
def maxOpenCalls : Nat := freeFrames / 2

/-- The tree of a template with at most `limit` calls open at once. -/
def parseWithin (limit : Nat) (text : String) : Except ParseError Node :=
  match readSegments limit text.toList with
  | .error e => .error ⟨e.fault, text.length - e.rest.length⟩
  | .ok segments => .ok (Node.ofSegments segments)

/-- The tree of a template. -/
def parse (text : String) : Except ParseError Node := parseWithin maxOpenCalls text

/-! ## Tests -/

example : (parse "a #(if (closed x.y) \"u\" '') b").toOption = some
    (.sequence (.sequence (.literal "a ")
      (.call (.name "if") [.call (.name "closed") [.name "x.y"], .quoted "u", .quoted ""]))
      (.literal " b")) := by cbv
example : parse "ab#( 1)" = .error ⟨.nameExpected, 5⟩ := by cbv
example : parse "#(f" = .error ⟨.endOfText .callExpression, 3⟩ := by cbv

end TextAdventure.Template
