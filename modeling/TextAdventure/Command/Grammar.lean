import TextAdventure.Text.Blank
import TextAdventure.Text.Quoted

/-!
# Grammars of sentences

A grammar has terminals, which are patterns of characters, and phrases made of
terminals.  A text is read from its start: a terminal is picked that matches
there, what it matches is a token, and reading goes on behind it.  Only terminals
that the sentence may go on with are picked, and those that are ignored; where
several match, one of the highest priority is.

A sentence is read as a tree.  A rule is a branch of the tree and a token is a
leaf, but terminals and rules with a name that begins with `_` are left out: such
a token is no leaf, and such a rule has its children stand in its place.

What may still come of a phrase behind some tokens are phrases again, in which
the trees read so far take the place of the tokens (`Phrase.nexts`).
-/

namespace TextAdventure

/-! ## Places and tokens -/

/-- A place in a text, counted from one. -/
structure Place where
  /-- The line. -/
  line : Nat
  /-- The column in the line. -/
  column : Nat
deriving DecidableEq, Repr

/-- The place of the first character of a text. -/
def Place.first : Place := ⟨1, 1⟩

/-- The place after a character. -/
def Place.after (p : Place) (c : Char) : Place :=
  if c = '\n' then ⟨p.line + 1, 1⟩ else ⟨p.line, p.column + 1⟩

/-- A piece of a text that a terminal matches. -/
structure Token where
  /-- The name of the terminal. -/
  kind : String
  /-- The characters. -/
  text : String
  /-- Where they begin. -/
  place : Place
deriving DecidableEq, Repr

/-! ## Patterns -/

/-- A class of characters. -/
inductive CharClass where
  /-- The characters that are no white space. -/
  | notBlank
  /-- Some characters. -/
  | oneOf (members : List Char)
deriving DecidableEq, Repr

/-- Decide whether a character is of a class. -/
def CharClass.holds : CharClass → Char → Bool
  | .notBlank, c => !Text.isBlank c
  | .oneOf members, c => decide (c ∈ members)

/-- What characters a terminal matches. -/
inductive Pattern where
  /-- One of some words, a former one rather than a latter. -/
  | anyOf (alternatives : List String)
  /-- One or more characters of a class, more rather than fewer. -/
  | run (members : CharClass)
  /-- No characters, unless the next one is of a class. -/
  | notBefore (members : CharClass)
  /-- One pattern and then another. -/
  | andThen (first second : Pattern)
deriving DecidableEq, Repr

/-- How many characters at the start of a text may be matched, the preferred number first. -/
def Pattern.lengths : Pattern → List Char → List Nat
  | .anyOf alternatives, cs =>
      (alternatives.filter fun word => word.toList.isPrefixOf cs).map fun word =>
        word.toList.length
  | .run members, cs =>
      (List.range (cs.takeWhile members.holds).length).reverse.map fun k => k + 1
  | .notBefore members, cs => if cs.head?.any members.holds then [] else [0]
  | .andThen first second, cs =>
      (first.lengths cs).flatMap fun k => (second.lengths (cs.drop k)).map fun l => k + l

/-- A terminal of a grammar. -/
structure Terminal where
  /-- What its tokens are called. -/
  name : String
  /-- Which terminals it is picked before: those of lower priority. -/
  priority : Nat
  /-- What it matches. -/
  pattern : Pattern
deriving DecidableEq, Repr

/-- How many characters the terminal matches at the start of a text, if it does.  A match has at
least one. -/
def Terminal.length? (x : Terminal) (cs : List Char) : Option Nat :=
  (x.pattern.lengths cs).head?.filter (0 < ·)

/-! ## Phrases and trees -/

/-- What a sentence is read as. -/
inductive Tree where
  /-- A token. -/
  | leaf (t : Token)
  /-- A rule with what it is made of. -/
  | branch (form : String) (children : List Tree)
deriving Repr, Inhabited

/-- What a sentence may be made of. -/
inductive Phrase where
  /-- A token of a terminal. -/
  | terminal (name : String)
  /-- A rule. -/
  | rule (name : String) (body : Phrase)
  /-- One phrase and then another. -/
  | andThen (first second : Phrase)
  /-- One phrase or another. -/
  | either (first second : Phrase)
  /-- Any number of phrases. -/
  | many (item : Phrase)
  /-- What has been read already. -/
  | read (children : List Tree)
deriving Repr, Inhabited

/-- A phrase that may be missing. -/
def Phrase.optional (p : Phrase) : Phrase := .either p (.read [])

/-- One or more phrases. -/
def Phrase.some (p : Phrase) : Phrase := .andThen p (.many p)

/-- Decide whether terminals and rules of a name are left out of trees. -/
def isHidden (name : String) : Bool := name.toList.head? = Option.some '_'

/-- What a token is in a tree. -/
def Token.trees (t : Token) : List Tree := if isHidden t.kind then [] else [.leaf t]

/-- What a rule is in a tree. -/
def ruleTrees (name : String) (children : List Tree) : List Tree :=
  if isHidden name then children else [.branch name children]

/-- What a phrase is read as if nothing follows. -/
def Phrase.finish : Phrase → List (List Tree)
  | .terminal _ => []
  | .rule name body => body.finish.map (ruleTrees name)
  | .andThen first second =>
      first.finish.flatMap fun children => second.finish.map fun more => children ++ more
  | .either first second => first.finish ++ second.finish
  | .many _ => [[]]
  | .read children => [children]

/-- What a phrase may go on as behind a token. -/
def Phrase.nexts (t : Token) : Phrase → List Phrase
  | .terminal name => if t.kind = name then [.read t.trees] else []
  | .rule name body => (body.nexts t).map (.rule name)
  | .andThen first second =>
      (first.nexts t).map (fun rest => rest.andThen second) ++
        first.finish.flatMap fun children => (second.nexts t).map fun rest =>
          .andThen (.read children) rest
  | .either first second => first.nexts t ++ second.nexts t
  | .many item => (item.nexts t).map fun rest => .andThen rest (.many item)
  | .read _ => []

/-- Decide whether a phrase may begin with a token of a terminal. -/
def Phrase.expects (p : Phrase) (name : String) : Bool :=
  !(p.nexts ⟨name, "", Place.first⟩).isEmpty

/-! ## Grammars -/

/-- How sentences are made of characters. -/
structure Grammar where
  /-- The rule that whole sentences are read by. -/
  start : String
  /-- What a sentence is made of. -/
  body : Phrase
  /-- The terminals. -/
  terminals : List Terminal
  /-- The names of the terminals that may stand anywhere and are left out. -/
  ignored : List String

/-- Why a text is no sentence. -/
inductive SentenceError where
  /-- The sentence may not go on with a token. -/
  | unexpectedToken (t : Token)
  /-- No terminal matches. -/
  | unexpectedCharacter (place : Place)
deriving DecidableEq, Repr

/-- Where a text fails to be a sentence. -/
def SentenceError.place : SentenceError → Place
  | .unexpectedToken t => t.place
  | .unexpectedCharacter place => place

/-- What is said about a text that is no sentence. -/
def SentenceError.message (e : SentenceError) : String :=
  let place := s!" at line {e.place.line}, column {e.place.column}."
  match e with
  | .unexpectedToken t =>
      "Unexpected token Token('" ++ t.kind ++ "', " ++ Text.quote t.text ++ ")" ++ place
  | .unexpectedCharacter _ => "Unexpected character" ++ place

/-- Pick one of some terminals that matches at the start of a text, with the number of its
characters: one of the highest priority, and the first of those. -/
def pickFrom (cs : List Char) : List Terminal → Option (Terminal × Nat)
  | [] => none
  | x :: rest =>
      match x.length? cs, pickFrom cs rest with
      | none, later => later
      | some k, none => some (x, k)
      | some k, some (y, l) => if x.priority < y.priority then some (y, l) else some (x, k)

/-- Pick a terminal of the grammar that is accepted. -/
def Grammar.pick? (g : Grammar) (accepts : String → Bool) (cs : List Char) :
    Option (Terminal × Nat) :=
  pickFrom cs (g.terminals.filter fun x => accepts x.name)

/-- The token that is missing where a text ends.  It is placed where the last token is. -/
def endToken (last : Option Place) : Token := ⟨"$END", "", last.getD Place.first⟩

/-- Read a text that begins at a place, behind tokens that `phrases` may go on from, the last of
which is placed at `last`.  The first `skipped` characters have been read. -/
def Grammar.readFrom (g : Grammar) (phrases : List Phrase) (last : Option Place) (place : Place)
    (skipped : Nat) : List Char → Except SentenceError Tree
  | [] =>
      match phrases.flatMap Phrase.finish with
      | [] => .error (.unexpectedToken (endToken last))
      | children :: _ => .ok (.branch g.start children)
  | c :: cs =>
      match skipped with
      | k + 1 => g.readFrom phrases last (place.after c) k cs
      | 0 =>
        let accepts name := name ∈ g.ignored || phrases.any fun p => p.expects name
        match g.pick? accepts (c :: cs) with
        | some (x, k) =>
            if x.name ∈ g.ignored then g.readFrom phrases last (place.after c) (k - 1) cs
            else
              let t : Token := ⟨x.name, String.ofList ((c :: cs).take k), place⟩
              g.readFrom (phrases.flatMap fun p => p.nexts t) (some place) (place.after c)
                (k - 1) cs
        | none =>
            match g.pick? (fun _ => true) (c :: cs) with
            | some (x, k) =>
                .error (.unexpectedToken ⟨x.name, String.ofList ((c :: cs).take k), place⟩)
            | none => .error (.unexpectedCharacter place)

/-- Read a text as a sentence. -/
def Grammar.read (g : Grammar) (text : String) : Except SentenceError Tree :=
  g.readFrom [g.body] none Place.first 0 text.toList

/-! ## Listings -/

mutual

/-- The listing of a tree at a depth: a leaf that is the only child stands beside the branch, other
children below it. -/
def Tree.listing (depth : Nat) : Tree → String
  | .leaf t => String.ofList (List.replicate (2 * depth) ' ') ++ t.text ++ "\n"
  | .branch form [.leaf t] =>
      String.ofList (List.replicate (2 * depth) ' ') ++ form ++ "\t" ++ t.text ++ "\n"
  | .branch form children =>
      String.ofList (List.replicate (2 * depth) ' ') ++ form ++ "\n" ++
        Tree.listingOfAll (depth + 1) children

/-- The listings of several trees. -/
def Tree.listingOfAll (depth : Nat) : List Tree → String
  | [] => ""
  | tree :: rest => tree.listing depth ++ Tree.listingOfAll depth rest

end

end TextAdventure
