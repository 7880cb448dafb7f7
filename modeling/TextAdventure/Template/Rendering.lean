import TextAdventure.Template.Evaluation
import TextAdventure.Template.Reader

/-!
# Rendering

To render a template is to read it, to evaluate its tree in a world and to
insist on a text.
-/

namespace TextAdventure.Template

/-- Why a template has no text. -/
inductive RenderError where
  /-- The text is not a template. -/
  | unreadable (e : ParseError)
  /-- The template has no value, or none that is a text. -/
  | unevaluable (e : EvalError)
deriving DecidableEq, Repr

/-- What is said about a template without text. -/
def RenderError.message : RenderError → String
  | .unreadable e => e.message
  | .unevaluable e => e.message

/-- The text that a value is. -/
def Value.content : Value → Except EvalError String
  | .text content => .ok content
  | value => .error (.notText value)

/-- The text of a tree in a world. -/
def renderNode (w : World) (n : Node) : Except EvalError String := do
  let value ← evaluate w n
  value.content

/-- The text of a template in a world. -/
def render (w : World) (text : String) : Except RenderError String :=
  match parse text with
  | .error e => .error (.unreadable e)
  | .ok n =>
      match renderNode w n with
      | .error e => .error (.unevaluable e)
      | .ok rendered => .ok rendered

end TextAdventure.Template
