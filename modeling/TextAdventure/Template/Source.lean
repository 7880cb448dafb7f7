import TextAdventure.Template.Node
import TextAdventure.Text.Quoted

/-!
# Template source

A tree is written as the source text it is read from.  A literal is written as
it stands.  In a template the sigil `#` comes before every expression; inside a
call it does not, and there a space comes before every argument.

A quoted string has no escapes, so it is written between quotation marks, or
between apostrophes if it holds a quotation mark, and a string that holds both
has no source.

Writing a call takes frames of the stack, and calls that are nested too deeply
overflow it.  Templates are written segment by segment, however many there are.
-/

namespace TextAdventure.Template

/-- The character that introduces an expression in a template. -/
def sigil : Char := '#'

/-- Why a tree has no source. -/
inductive SourceError where
  /-- A quoted string holds both marks. -/
  | unquotable (text : String)
  /-- A node is of no form of the language. -/
  | unknownNode
  /-- There are no frames left for a call. -/
  | overflow
deriving DecidableEq, Repr

/-- What is said about a tree without source. -/
def SourceError.message : SourceError → String
  | .unquotable text => "String cannot be quoted: " ++ Text.quote text
  | .unknownNode => "AstNode.unparse() not implemented"
  | .overflow => "maximum recursion depth exceeded"

/-- Where a node is written: among the segments of a template or inside an expression. -/
inductive Position where
  | template
  | expression
deriving DecidableEq, Repr

/-- The source of an expression at a place: with the sigil in a template. -/
def Position.mark (place : Position) (source : String) : String :=
  match place with
  | .template => String.singleton sigil ++ source
  | .expression => source

/-- How many frames are taken by a sequence at a place.  In a template it is taken apart. -/
def Position.sequenceFrames : Position → Nat
  | .template => 0
  | .expression => 2

/-- How many frames are taken by a call around each of its arguments: one for the call, and two for
the arguments that are written one after the other. -/
def callFrames : Nat := 3

/-- The most calls inside one another that are written. -/
def maxWrittenCalls : Nat := freeFrames / callFrames

/-- The source of a quoted string. -/
def quotedSource (text : String) : Except SourceError String :=
  if '"' ∉ text.toList then .ok ("\"" ++ text ++ "\"")
  else if '\'' ∉ text.toList then .ok ("'" ++ text ++ "'")
  else .error (.unquotable text)

mutual

/-- The source of a node at a place, with a number of frames left.  The parts of a sequence stand in
a template wherever the sequence itself stands. -/
def Node.sourceAt (frames : Nat) (place : Position) : Node → Except SourceError String
  | .empty => .ok ""
  | .literal text => .ok text
  | .sequence left right => do
      let l ← left.sourceAt (frames - place.sequenceFrames) .template
      let r ← right.sourceAt (frames - place.sequenceFrames) .template
      return l ++ r
  | .quoted text => do
      let source ← quotedSource text
      return place.mark source
  | .name token => .ok (place.mark token)
  | .call callee arguments =>
      if frames < callFrames then .error .overflow
      else do
        let head ← callee.sourceAt (frames - 1) .expression
        let rest ← Node.argumentsSource (frames - callFrames) arguments
        return place.mark ("(" ++ head ++ rest ++ ")")
  | .unknown => .error .unknownNode

/-- The sources of the arguments of a call, a space before each. -/
def Node.argumentsSource (frames : Nat) : List Node → Except SourceError String
  | [] => .ok ""
  | argument :: arguments => do
      let source ← argument.sourceAt frames .expression
      let rest ← Node.argumentsSource frames arguments
      return " " ++ source ++ rest

end

/-- The source of a node as an expression. -/
def Node.source (n : Node) : Except SourceError String := n.sourceAt freeFrames .expression

/-- The source of a node as a template. -/
def Node.templateSource (n : Node) : Except SourceError String := n.sourceAt freeFrames .template

/-! ## Tests -/

example : (Node.call (.name "if") [.name "a.b", .quoted "\"", .quoted ""]).templateSource.toOption
    = some "#(if a.b '\"' \"\")" := by decide +kernel
example : (Node.sequence (.literal "x") (.sequence .empty (.name "y"))).source.toOption
    = some "x#y" := by decide +kernel
example : (Node.quoted "'\"").source = .error (.unquotable "'\"") := by rfl

end TextAdventure.Template
