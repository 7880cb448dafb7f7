import TextAdventure.Command.Grammar

/-!
# The grammar of commands

The sentence of a command opens with a verb or a direction.  The words after it, up
to the first connector, name the object.  That connector and everything after it,
later connectors included, is the indirect object.  Articles are left out, but an
object made of articles alone is still there.

A keyword is matched only where it is a whole word, and then rather than as a plain
word.  Words end at white space of any kind, but only five characters may stand
between words.  Other white space cannot be read.
-/

namespace TextAdventure

/-! ## Terminals -/

/-- The keywords for verbs. -/
def verbKeywords : List String :=
  ["get", "take", "acquire", "put", "give", "toss", "drop", "use", "move", "go", "buy", "drink",
   "eat", "sleep"]

/-- The keywords for directions. -/
def directionKeywords : List String := ["north", "east", "south", "west"]

/-- The keywords for connectors. -/
def connectorKeywords : List String :=
  ["in", "into", "on", "onto", "under", "to", "from", "with"]

/-- The articles. -/
def articles : List String := ["a", "an", "the"]

/-- Some words that are matched only as whole words. -/
def keywordPattern (keywords : List String) : Pattern :=
  .andThen (.anyOf keywords) (.notBefore .notBlank)

/-- The characters that may stand between the words of a sentence. -/
def separators : List Char := [' ', '\t', '\x0c', '\r', '\n']

/-- The terminals of sentences. -/
def commandTerminals : List Terminal :=
  [⟨"VERB", 2, keywordPattern verbKeywords⟩,
   ⟨"DIRECTION", 2, keywordPattern directionKeywords⟩,
   ⟨"CONNECTOR", 2, keywordPattern connectorKeywords⟩,
   ⟨"_ARTICLE", 2, keywordPattern articles⟩,
   ⟨"WORD", 0, .run .notBlank⟩,
   ⟨"WS", 0, .run (.oneOf separators)⟩]

/-! ## Rules -/

/-- Any word but a connector. -/
def wordRule : Phrase :=
  .rule "_word" (.either (.terminal "WORD") (.either (.terminal "VERB")
    (.either (.terminal "DIRECTION") (.terminal "_ARTICLE"))))

/-- The opening of a sentence. -/
def actionRule : Phrase :=
  .either (.rule "verb" (.terminal "VERB")) (.rule "direction" (.terminal "DIRECTION"))

/-- The object. -/
def objectRule : Phrase := .rule "object" wordRule.some

/-- The indirect object. -/
def indirectRule : Phrase :=
  .rule "indirect"
    (.andThen (.terminal "CONNECTOR") (.many (.either wordRule (.terminal "CONNECTOR"))))

/-- The grammar of commands. -/
def commandGrammar : Grammar where
  start := "start"
  body := .andThen actionRule (.andThen objectRule.optional indirectRule.optional)
  terminals := commandTerminals
  ignored := ["WS"]

/-- What reads the sentences of texts. -/
abbrev SentenceReader : Type := String → Except SentenceError Tree

/-! ## Tests -/

example : ((commandGrammar.read "put the coin\n into a in").toOption.map (Tree.listing 0)) =
    some "start\n  verb\tput\n  object\tcoin\n  indirect\n    into\n    in\n" := by
  decide +kernel
example : (commandGrammar.read " dance").toOption.isNone = true := by decide +kernel

end TextAdventure
