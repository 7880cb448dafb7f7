import TextAdventure.Command.Sentence
import TextAdventure.Command.Vocabulary
import TextAdventure.Text.Lower

/-!
# Commands

A command is what a sentence means: a verb, the words that name its object, and
a connector with the words that name its second object.  A direction alone means
to move there.  A sentence is read in lower case with one space between words.

Sentences are read by a reader that is given.  What it gives is a tree, and only
some trees are trees of commands.  Others are faults of the reader and not of the
player (`TreeFault`).
-/

namespace TextAdventure

/-- What a player wants done. -/
structure Command where
  /-- The action. -/
  verb : Verb
  /-- The name of the thing it is done to. -/
  direct : Option (List String)
  /-- How it is done, and the name of the second thing. -/
  indirect : Option (Connector × List String)
deriving DecidableEq, Repr

/-- Why a text is not a command. -/
inductive CommandError where
  /-- There is no word. -/
  | commandExpected
  /-- The first word is neither a verb nor a direction. -/
  | notVerb
  /-- Nothing is named after the connector. -/
  | indirectObjectRequired
deriving DecidableEq, Repr

/-- What is said about a text that is not a command. -/
def CommandError.message : CommandError → String
  | .commandExpected => "cannot parse command: command expected"
  | .notVerb => "cannot parse command: not a valid verb"
  | .indirectObjectRequired => "cannot parse command: indirect object required after connector"

/-- What is wrong with a tree that is no tree of a command. -/
inductive TreeFault where
  /-- A branch is of no known form. -/
  | unknownForm (form : String)
  /-- A word stands for nothing. -/
  | unknownWord (word : String)
  /-- A branch has no children. -/
  | childMissing
  /-- A branch stands where a token is needed. -/
  | notToken
  /-- A token stands where a branch is needed. -/
  | notBranch
  /-- No branch tells the verb. -/
  | verbMissing
deriving DecidableEq, Repr

/-- What is said about a tree that is no tree of a command. -/
def TreeFault.message : TreeFault → String
  | .unknownForm form => "Unhandled grammar rule: " ++ form
  | .unknownWord word => Text.quote word
  | .childMissing => "list index out of range"
  | .notToken => "'Tree' object has no attribute 'value'"
  | .notBranch => "'Token' object has no attribute 'data'"
  | .verbMissing => "'NoneType' object has no attribute 'value'"

/-- How a text leads to no command. -/
inductive CommandFailure where
  /-- The text is not a command, and the player is told so. -/
  | refused (e : CommandError)
  /-- The tree of the sentence cannot be understood. -/
  | broken (f : TreeFault)
deriving DecidableEq, Repr

/-! ## The tree of a sentence -/

/-- The token that a tree is. -/
def Tree.token : Tree → Except CommandFailure Token
  | .leaf t => .ok t
  | .branch .. => .error (.broken .notToken)

/-- The words of tokens. -/
def wordsOf : List Tree → Except CommandFailure (List String)
  | [] => .ok []
  | tree :: rest => do
      let t ← tree.token
      let words ← wordsOf rest
      return t.text :: words

/-- What the first of some trees stands for, given what words stand for. -/
def firstMeaning {β : Type} (entries : List (String × β)) : List Tree → Except CommandFailure β
  | [] => .error (.broken .childMissing)
  | tree :: _ => do
      let t ← tree.token
      match entries.lookup t.text with
      | some b => .ok b
      | none => .error (.broken (.unknownWord t.text))

/-- The parts of a command that have been found. -/
structure CommandParts where
  /-- The action. -/
  verb : Option Verb
  /-- The words that name the thing it is done to. -/
  direct : List String
  /-- How it is done, and the words that name the second thing. -/
  indirect : Option (Connector × List String)
deriving DecidableEq, Repr

/-- The parts when nothing has been found. -/
def CommandParts.empty : CommandParts := ⟨none, [], none⟩

/-- Add what a branch tells. -/
def CommandParts.add (parts : CommandParts) : Tree → Except CommandFailure CommandParts
  | .leaf _ => .error (.broken .notBranch)
  | .branch form children =>
      if form = "verb" then do
        let verb ← firstMeaning verbWords children
        return { parts with verb := some verb }
      else if form = "direction" then do
        let direction ← firstMeaning directionWords children
        return { parts with
          verb := some .move
          direct := parts.direct ++ [direction.word] }
      else if form = "object" then do
        let words ← wordsOf children
        return { parts with direct := parts.direct ++ words }
      else if form = "indirect" then do
        let connector ← firstMeaning connectorWords children
        let words ← wordsOf children.tail
        if words = [] then .error (.refused .indirectObjectRequired)
        else return { parts with indirect := some (connector, words) }
      else .error (.broken (.unknownForm form))

/-- The name of a thing, if it has a word. -/
def nameOf (ws : List String) : Option (List String) := if ws = [] then none else some ws

/-- The command with some parts. -/
def CommandParts.command (parts : CommandParts) : Except CommandFailure Command :=
  match parts.verb with
  | none => .error (.broken .verbMissing)
  | some verb => .ok ⟨verb, nameOf parts.direct, parts.indirect⟩

/-- The command that a sentence means. -/
def Command.ofTree (sentence : Tree) : Except CommandFailure Command :=
  match sentence with
  | .leaf _ => .error (.broken .notBranch)
  | .branch _ children => do
      let parts ← children.foldlM CommandParts.add CommandParts.empty
      parts.command

/-! ## Texts -/

/-- A text in lower case with one space between words. -/
def normalize (text : String) : String := Text.unwords (Text.words (Text.lower text))

/-- The command that a text means, with a reader of sentences. -/
def Command.parse (read : SentenceReader) (text : String) : Except CommandFailure Command :=
  if Text.words (Text.lower text) = [] then .error (.refused .commandExpected)
  else
    match read (normalize text) with
    | .error _ => .error (.refused .notVerb)
    | .ok sentence => Command.ofTree sentence

/-- A command as a sentence. -/
def Command.sentence (c : Command) : String :=
  Text.unwords ((c.verb.word :: c.direct.getD []) ++
    match c.indirect with
    | none => []
    | some (connector, name) => connector.word :: name)

/-! ## Tests -/

example : (Command.parse commandGrammar.read "Put the COIN  into a purse").toOption
    = some ⟨.put, some ["coin"], some (.into, ["purse"])⟩ := by decide +kernel
example : (Command.parse commandGrammar.read "north now").toOption
    = some ⟨.move, some ["north", "now"], none⟩ := by decide +kernel
example : (Command.parse commandGrammar.read "get the").toOption = some ⟨.get, none, none⟩ := by
  decide +kernel
example : (Command.parse commandGrammar.read "give to the").toOption = none := by decide +kernel

end TextAdventure
