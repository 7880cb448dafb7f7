import TextAdventure.Game.Player
import TextAdventure.Command.Parse

/-!
# Sessions

In a session a player types lines.  The first word of a line, in any case, may be
a request of the session itself: to quit, to look around, to get help or to
describe a thing.  Any other line is read as a command, which the game does not
carry out yet.  Blank lines ask for nothing.  Commands are parsed with a reader of
sentences that is given.
-/

namespace TextAdventure

/-- What a line asks for. -/
inductive Request where
  /-- Nothing. -/
  | nothing
  /-- To end the session. -/
  | quit
  /-- To look around. -/
  | look
  /-- To show what can be typed. -/
  | help
  /-- To describe the thing with a dotted name. -/
  | describe (dotted : String)
  /-- To carry out a command. -/
  | command (text : String)
deriving DecidableEq, Repr

/-- The thing that is described where none is named. -/
def defaultThing : String := "rusty.metal.door"

/-- What a line asks for. -/
def Request.ofLine (line : String) : Request :=
  match Text.words line with
  | [] => .nothing
  | head :: rest =>
      let word := Text.lower head
      if (word = "quit" ∨ word = "q") ∧ rest = [] then .quit
      else if (word = "look" ∨ word = "l") ∧ rest = [] then .look
      else if (word = "help" ∨ word = "h") ∧ rest = [] then .help
      else if word = "desc" ∨ word = "d" then .describe (rest.head?.getD defaultThing)
      else .command line

/-- What can be typed in a session. -/
def helpLines : List String :=
  ["Commands:",
   "  help or h         show this help",
   "  quit or q         quit the game",
   "  look or l         describe your surroundings",
   "  desc or d [NAME]  describe the thing called NAME"]

/-- Why a line has no answer. -/
inductive SessionError where
  /-- The player sees nothing. -/
  | view (e : ViewError)
  /-- The tree of the sentence cannot be understood. -/
  | command (f : TreeFault)
deriving DecidableEq, Repr

/-- What is said where a line has no answer. -/
def SessionError.message : SessionError → String
  | .view e => e.message
  | .command f => f.message

/-- The answer to a command. -/
def commandLines (read : SentenceReader) (text : String) : Except SessionError (List String) :=
  match Command.parse read text with
  | .error (.refused e) => .ok ["I don't know how to do that.", "(" ++ e.message ++ ")"]
  | .error (.broken f) => .error (.command f)
  | .ok c => .ok ["trying to " ++ c.sentence, "I don't know how to do that."]

/-- The answer to a request. -/
def Player.answer (p : Player) (read : SentenceReader) :
    Request → Except SessionError (List String)
  | .nothing => .ok []
  | .quit => .ok []
  | .look => p.look.mapError .view
  | .help => .ok helpLines
  | .describe dotted => (p.examine dotted).mapError .view
  | .command text => commandLines read text

/-- A player who types lines. -/
structure Session where
  /-- The player. -/
  player : Player
  /-- Whether the player has asked to quit. -/
  done : Bool

/-- A session that begins. -/
def Session.start (p : Player) : Session := ⟨p, false⟩

/-- The answer to a line, and the session after it. -/
def Session.handleLine (s : Session) (read : SentenceReader) (line : String) :
    Except SessionError (List String) × Session :=
  (s.player.answer read (Request.ofLine line),
    ⟨s.player, s.done || decide (Request.ofLine line = .quit)⟩)

end TextAdventure
