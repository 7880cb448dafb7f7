import TextAdventure.Template.Source
import TextAdventure.World.Entity

/-!
# Values

What expressions stand for while a template is evaluated.  Only a text may be
the value of a whole template.  A deferred expression is an argument that has
not been evaluated yet.

Templates can call three builtin functions.  `if` is special: its arguments are
handed to it deferred.
-/

namespace TextAdventure.Template

/-- The builtin functions. -/
inductive Builtin where
  /-- Choose between two expressions. -/
  | conditional
  /-- Tell whether an entity is closed. -/
  | closed
  /-- Tell whether an entity is locked. -/
  | locked
deriving DecidableEq, Repr

/-- The name that templates call a builtin function by. -/
def Builtin.word : Builtin → String
  | .conditional => "if"
  | .closed => "closed"
  | .locked => "locked"

/-- A function as a value. -/
structure FunctionValue where
  /-- The function that runs. -/
  builtin : Builtin
  /-- What the function is called in messages. -/
  name : String
  /-- Whether arguments are handed over deferred. -/
  special : Bool
  /-- The fewest arguments accepted.  A bound of zero or less excludes nothing. -/
  minArguments : Int
  /-- The most arguments accepted.  A bound below zero excludes every call. -/
  maxArguments : Int
deriving DecidableEq, Repr

/-- The value of the name of a builtin function. -/
def Builtin.value : Builtin → FunctionValue
  | .conditional => ⟨.conditional, "if", true, 3, 3⟩
  | .closed => ⟨.closed, "closed", false, 1, 1⟩
  | .locked => ⟨.locked, "locked", false, 1, 1⟩

/-- The builtin function with a name. -/
def builtin? (token : String) : Option Builtin :=
  if token = "if" then some .conditional
  else if token = "closed" then some .closed
  else if token = "locked" then some .locked
  else none

@[simp] theorem builtin?_word (b : Builtin) : builtin? b.word = some b := by
  cases b <;> rfl

/-- What an expression stands for. -/
inductive Value where
  /-- A text. -/
  | text (content : String)
  /-- A truth value. -/
  | flag (holds : Bool)
  /-- An entity, given by its id. -/
  | entity (id : EntityId)
  /-- A function. -/
  | function (f : FunctionValue)
  /-- An expression that has not been evaluated. -/
  | deferred (node : Node)
deriving DecidableEq, Repr

/-- Decide whether a value is a deferred expression. -/
def Value.isDeferred : Value → Bool
  | .deferred _ => true
  | _ => false

/-- A value as it is shown in messages. -/
def Value.format : Value → Except SourceError String
  | .text content => .ok (Text.quote content)
  | .flag holds => .ok (if holds then "true" else "false")
  | .entity id => .ok ("entity " ++ id.display)
  | .function f => .ok ("function " ++ f.name)
  | .deferred node => do
      let source ← node.source
      return "deferred " ++ source

end TextAdventure.Template
