import TextAdventure.Template.Node
import TextAdventure.Text.Quoted

/-!
# Tree outlines

An outline lists the nodes of a tree, one to a line and each before the nodes
below it.  A line is indented by two spaces for each level of depth and shows
the form of the node and, quoted, its text.

The lines are printed one by one on the way down, and every level of the tree
takes a frame of the stack.  So the lines of a tree that is too tall for it are
printed down to where the stack overflows, and no more.
-/

namespace TextAdventure.Template

/-- One node in an outline. -/
structure OutlineEntry where
  /-- How many nodes the node lies below. -/
  depth : Nat
  /-- The form of the node. -/
  form : String
  /-- The text of the node, if it has one. -/
  text : Option String
deriving DecidableEq, Repr

/-- The text of a node itself, without the nodes below it. -/
def Node.label : Node → Option String
  | .literal text => some text
  | .quoted text => some text
  | .name token => some token
  | _ => none

/-- The line of an entry. -/
def OutlineEntry.line (e : OutlineEntry) : String :=
  String.ofList (List.replicate (2 * e.depth) ' ') ++ e.form ++ "(" ++
    (e.text.map Text.quote).getD "" ++ ")"

/-- Why no more of an outline is printed. -/
inductive OutlineError where
  /-- There is no frame left for a level of the tree. -/
  | overflow
  /-- A node is of no form of the language. -/
  | unlisted
deriving DecidableEq, Repr

/-- What is said when no more of an outline is printed. -/
def OutlineError.message : OutlineError → String
  | .overflow => "maximum recursion depth exceeded while calling a Python object"
  | .unlisted => "must be called with a dataclass type or instance"

/-- What has been printed of an outline. -/
structure Printout where
  /-- The lines. -/
  lines : List String
  /-- Why there are no more of them, if some are missing. -/
  stop : Option OutlineError
deriving DecidableEq, Repr

/-- Print one thing and then another, unless something is missing of the first. -/
def Printout.andThen (first second : Printout) : Printout :=
  match first.stop with
  | none => ⟨first.lines ++ second.lines, second.stop⟩
  | some _ => first

/-- Print an entry and what is below it, if there is a frame for that. -/
def Printout.under (frames : Nat) (e : OutlineEntry) (below : Printout) : Printout :=
  match frames with
  | 0 => ⟨[], some .overflow⟩
  | _ + 1 => ⟨e.line :: below.lines, below.stop⟩

mutual

/-- Print a tree whose root lies at a given depth, with a number of frames left. -/
def Node.printout (frames depth : Nat) : Node → Printout
  | .sequence l r =>
      .under frames ⟨depth, "Sequence", none⟩
        ((l.printout (frames - 1) (depth + 1)).andThen (r.printout (frames - 1) (depth + 1)))
  | .call f as =>
      .under frames ⟨depth, "Call", none⟩
        ((f.printout (frames - 1) (depth + 1)).andThen
          (Node.printoutOfAll (frames - 1) (depth + 1) as))
  | .unknown => ⟨[], some (if frames = 0 then .overflow else .unlisted)⟩
  | n => .under frames ⟨depth, n.form, n.label⟩ ⟨[], none⟩

/-- Print several trees whose roots lie at a given depth. -/
def Node.printoutOfAll (frames depth : Nat) : List Node → Printout
  | [] => ⟨[], none⟩
  | a :: as => (a.printout frames depth).andThen (Node.printoutOfAll frames depth as)

end

/-- Print the outline of a tree. -/
def Node.outline (n : Node) : Printout := n.printout freeFrames 0

/-! ## Tests -/

example : (Node.sequence (.literal "a\n") (.call (.name "f") [.quoted ""])).outline
    = ⟨["Sequence()", "  Literal('a\\n')", "  Call()", "    Identifier('f')",
        "    StringLiteral('')"], none⟩ := by decide +kernel

end TextAdventure.Template
