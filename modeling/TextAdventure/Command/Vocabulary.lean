/-!
# The vocabulary of commands

What the words of players mean.  Several words may stand for one verb or one
connector, and each of them has one word that it is shown by.  Which words may
stand where in a sentence is not said here but by the grammar of sentences.
-/

namespace TextAdventure

/-- What a player wants to do. -/
inductive Verb where
  | get
  | put
  | use
  | move
  | buy
  | drink
  | eat
  | sleep
deriving DecidableEq, Repr

/-- The word that a verb is shown by. -/
def Verb.word : Verb → String
  | .get => "get"
  | .put => "put"
  | .use => "use"
  | .move => "move"
  | .buy => "buy"
  | .drink => "drink"
  | .eat => "eat"
  | .sleep => "sleep"

/-- The title of a verb in listings. -/
def Verb.title (v : Verb) : String := v.word.toUpper

/-- How the second object of a command is related to the first. -/
inductive Connector where
  /-- Into the second object. -/
  | into
  /-- Onto the second object. -/
  | onto
  /-- Under the second object. -/
  | under
  /-- Beside the second object. -/
  | beside
  /-- To the second object. -/
  | goal
  /-- From the second object. -/
  | origin
  /-- With the second object. -/
  | means
deriving DecidableEq, Repr

/-- The word that a connector is shown by. -/
def Connector.word : Connector → String
  | .into => "into"
  | .onto => "onto"
  | .under => "under"
  | .beside => "beside"
  | .goal => "to"
  | .origin => "from"
  | .means => "with"

/-- The title of a connector in listings. -/
def Connector.title (c : Connector) : String := c.word.toUpper

/-- Where one can go. -/
inductive Direction where
  | north
  | east
  | south
  | west
deriving DecidableEq, Repr

/-- The word for a direction. -/
def Direction.word : Direction → String
  | .north => "north"
  | .east => "east"
  | .south => "south"
  | .west => "west"

/-! ## What words stand for -/

/-- The verbs that words stand for. -/
def verbWords : List (String × Verb) :=
  [("get", .get), ("take", .get), ("acquire", .get), ("put", .put), ("give", .put),
   ("toss", .put), ("drop", .put), ("use", .use), ("move", .move), ("go", .move), ("buy", .buy),
   ("drink", .drink), ("eat", .eat), ("sleep", .sleep)]

/-- The connectors that words stand for. -/
def connectorWords : List (String × Connector) :=
  [("in", .into), ("into", .into), ("on", .onto), ("onto", .onto), ("under", .under),
   ("to", .goal), ("from", .origin), ("with", .means)]

/-- The directions that words stand for. -/
def directionWords : List (String × Direction) :=
  [Direction.north, .east, .south, .west].map fun d => (d.word, d)

end TextAdventure
