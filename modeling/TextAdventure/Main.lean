import TextAdventure.CommandLine.Run

/-!
# The program

Tasks other than playing are done by `CommandLine.run`.  A game is played line by
line: each line is answered before the next one is read.
-/

namespace TextAdventure.Main

/-- Write the entries that are kept at a threshold. -/
def record (threshold : Option Level) (entries : List JournalEntry) : IO Unit := do
  (← IO.getStderr).putStr (journalText threshold entries)

/-- Answer lines until the player quits or the input ends. -/
partial def converse (threshold : Option Level) (s : Session) : IO Unit := do
  let stdout ← IO.getStdout
  stdout.putStr defaultPrompt
  stdout.flush
  let line ← (← IO.getStdin).getLine
  if line.isEmpty then stdout.putStrLn ""
  else
    let line := if line.back = '\n' then (line.dropEnd 1).toString else line
    record threshold (s.player.lineEntries commandGrammar.read line)
    let (answer, next) := s.handleLine commandGrammar.read line
    match answer with
    | .error e => (← IO.getStderr).putStr (CommandLine.errorReport e.message)
    | .ok lines => do
        stdout.putStr (unlines lines)
        if next.done then return
        converse threshold next

end TextAdventure.Main

open TextAdventure TextAdventure.Main in
/-- Do what the arguments ask for. -/
def main (arguments : List String) : IO UInt32 := do
  match CommandLine.Invocation.ofArguments arguments with
  | .ok ⟨.play width, threshold⟩ => do
      let player := CommandLine.examplePlayer width
      record threshold [player.startEntry]
      (← IO.getStdout).putStr (unlines greeting)
      converse threshold (Session.start player)
      return 0
  | _ =>
      match CommandLine.run commandGrammar.read arguments "" with
      | .ok outcome => do
          (← IO.getStdout).putStr outcome.output
          (← IO.getStderr).putStr outcome.report
          return outcome.status.toUInt32
      | .error crash => do
          (← IO.getStderr).putStr (CommandLine.errorReport crash.message)
          return 1
