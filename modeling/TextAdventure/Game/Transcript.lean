import TextAdventure.Game.Session
import TextAdventure.Text.Lines

/-!
# Transcripts

A transcript is all that is written while a player types the lines of an input:
a greeting, and for each line a prompt and the answer, up to the first line that
asks to quit.  If no line does, the last prompt stands on a line of its own.
-/

namespace TextAdventure

/-- What players are told at the beginning. -/
def greeting : List String :=
  ["If you don't know what to do, type \"help\" (without the quotes).",
   "To leave the game, type \"quit\".",
   ""]

/-- What is written where a line is expected. -/
def defaultPrompt : String := ">> "

/-- What is written while a session goes through lines. -/
def Session.play (read : SentenceReader) (prompt : String) (s : Session) :
    List String → Except SessionError String
  | [] => .ok (prompt ++ "\n")
  | line :: rest => do
      let answer ← (s.handleLine read line).1
      if (s.handleLine read line).2.done then return prompt ++ unlines answer
      else do
        let more ← (s.handleLine read line).2.play read prompt rest
        return prompt ++ unlines answer ++ more

/-- All that is written while a player types an input. -/
def transcript (p : Player) (read : SentenceReader) (prompt input : String) :
    Except SessionError String := do
  let played ← (Session.start p).play read prompt (inputLines input)
  return unlines greeting ++ played

end TextAdventure
