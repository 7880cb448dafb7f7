import TextAdventure.CommandLine.Arguments
import TextAdventure.Game.Journal
import TextAdventure.Template.Outline

/-!
# What the program does

The arguments ask for one of five things: the text or the outline of a template,
the meaning or the sentence of a command, or a game in the example world.  `run`
gives all that is written for arguments and an input, and the status that the
program ends with.

An option may be given but blank.  A blank template is the empty template.
Nothing can be done with a blank width or a blank command, and not all that is
asked for can be done (`Crash`): `run` then has no outcome.
-/

namespace TextAdventure.CommandLine

/-- What the program is asked to do. -/
inductive Task where
  /-- Show how the program is used. -/
  | help
  /-- Show the text of a template in lines of a width. -/
  | renderText (template : Given String) (width : Int)
  /-- Show the outline of a template. -/
  | showOutline (template : Given String)
  /-- Show what a command means. -/
  | showCommand (text : String)
  /-- Show the sentence of a command. -/
  | showSentence (text : String)
  /-- Play in the example world, with lines of a width. -/
  | play (width : Int)
deriving DecidableEq, Repr

/-- A task and the journal kept while it is done. -/
structure Invocation where
  /-- The task. -/
  task : Task
  /-- The level from which entries are kept, if any are. -/
  threshold : Option Level
deriving DecidableEq, Repr

/-- The options that cannot be blank. -/
inductive BlankOption where
  | width
  | command
deriving DecidableEq, Repr

/-- What is said about a blank option. -/
def BlankOption.message : BlankOption → String
  | .width => "'<' not supported between instances of 'list' and 'int'"
  | .command => "'list' object has no attribute 'lower'"

/-- Why there is no task. -/
inductive Refusal where
  /-- The arguments make no sense. -/
  | usage (e : UsageError)
  /-- An option is blank that the task cannot do without. -/
  | blank (o : BlankOption)
deriving DecidableEq, Repr

/-- The level from which entries are kept. -/
def Settings.threshold (settings : Settings) : Option Level :=
  if settings.debug then some .debug else if settings.verbose then some .info else none

/-- The task that settings ask for with lines of a width. -/
def Settings.taskWithin (settings : Settings) (width : Int) : Except Refusal Task :=
  match settings.command, settings.text with
  | some .blank, _ => .error (.blank .command)
  | some (.value text), _ =>
      .ok (if settings.sentence then .showSentence text else .showCommand text)
  | none, some template =>
      .ok (if settings.outline then .showOutline template else .renderText template width)
  | none, none => .ok (.play width)

/-- The task that settings ask for, if they fit together. -/
def Settings.task (settings : Settings) : Except Refusal Task :=
  if settings.text.isSome && settings.command.isSome then .error (.usage .textWithCommand)
  else if settings.outline && settings.text.isNone then .error (.usage .outlineWithoutText)
  else if settings.sentence && settings.command.isNone then
    .error (.usage .sentenceWithoutCommand)
  else
    match settings.width with
    | .blank => .error (.blank .width)
    | .value width =>
        if width < 1 then .error (.usage .widthNotPositive) else settings.taskWithin width

/-- What arguments ask for. -/
def Invocation.ofArguments (arguments : List String) : Except Refusal Invocation :=
  match Settings.ofArguments arguments with
  | .error (.usage e) => .error (.usage e)
  | .error .help => .ok ⟨.help, none⟩
  | .ok settings =>
      match settings.task with
      | .error e => .error e
      | .ok task => .ok ⟨task, settings.threshold⟩

/-! ## Outcomes -/

/-- Why a run of the program has no outcome. -/
inductive Crash where
  /-- An option is blank that the task cannot do without. -/
  | blank (o : BlankOption)
  /-- An outline cannot be printed. -/
  | outline (e : Template.OutlineError)
  /-- The tree of a command cannot be understood. -/
  | command (f : TreeFault)
  /-- A line of a game has no answer. -/
  | line (e : SessionError)
deriving DecidableEq, Repr

/-- What is said about a run without outcome. -/
def Crash.message : Crash → String
  | .blank o => o.message
  | .outline e => e.message
  | .command f => f.message
  | .line e => e.message

/-- All that a run of the program leaves behind. -/
structure Outcome where
  /-- The status that the program ends with. -/
  status : Nat
  /-- What is written as the result. -/
  output : String
  /-- What is written about the run. -/
  report : String
deriving DecidableEq, Repr

/-- How the program is used. -/
def usageLines : List String :=
  ["usage: mudstuck [-h] [--text TEMPLATE] [--ast] [--command SENTENCE] [--lark]",
   "                [--width WIDTH] [-v] [--debug]"]

/-- What the options are for. -/
def helpText : String :=
  unlines (usageLines ++
    ["",
     "Mudstuck text adventure",
     "",
     "options:",
     "  -h, --help          show this help message and exit",
     "  --text TEMPLATE     Render a template against the example world",
     "  --ast               Show the parse tree of --text instead of rendering it",
     "  --command SENTENCE  Parse a player command and show its parts",
     "  --lark              Show the raw Lark tree of --command",
     "  --width WIDTH       Line width for wrapped output (default: 72)",
     "  -v, --verbose       Log informational messages",
     "  --debug             Log debugging messages"])

/-- The lines about arguments that make no sense. -/
def usageReport (e : UsageError) : String :=
  unlines (usageLines ++ ["mudstuck: error: " ++ e.message])

/-- The line about a text that is not a template. -/
def parseReport (e : Template.ParseError) : String :=
  s!"Parse error at {e.position}: {e.message}\n"

/-- The line about anything else that fails. -/
def errorReport (message : String) : String := "Error: " ++ message ++ "\n"

/-- The template given with an option.  A blank template is empty. -/
def Given.template : Given String → String
  | .value template => template
  | .blank => ""

/-- Show the text of a template in the example world. -/
def renderText (template : String) (width : Int) : Outcome :=
  match Template.render Example.world template with
  | .error (.unreadable e) => ⟨1, "", parseReport e⟩
  | .error (.unevaluable e) => ⟨1, "", errorReport e.message⟩
  | .ok text =>
      match Text.wrap text width with
      | .error e => ⟨1, "", errorReport e.message⟩
      | .ok lines => ⟨0, unlines lines, ""⟩

/-- Show the outline of a template. -/
def showOutline (template : String) : Except Crash Outcome :=
  match Template.parse template with
  | .error e => .ok ⟨1, "", parseReport e⟩
  | .ok node =>
      match node.outline.stop with
      | some e => .error (.outline e)
      | none => .ok ⟨0, unlines node.outline.lines, ""⟩

/-- The lines that tell what a command means. -/
def commandParts (c : Command) : List String :=
  ("verb: " ++ c.verb.title) ::
    ((c.direct.map fun name => "direct object: " ++ Text.unwords name).toList ++
      (c.indirect.map fun (connector, name) =>
        "indirect object: " ++ connector.title ++ " " ++ Text.unwords name).toList)

/-- Show what a command means. -/
def showCommand (read : SentenceReader) (text : String) : Except Crash Outcome :=
  match Command.parse read text with
  | .error (.refused e) => .ok ⟨1, "", errorReport e.message⟩
  | .error (.broken f) => .error (.command f)
  | .ok c => .ok ⟨0, unlines (commandParts c), ""⟩

/-- Show the sentence of a command. -/
def showSentence (read : SentenceReader) (text : String) : Outcome :=
  match read (normalize text) with
  | .error e => ⟨1, "", "Error: " ++ e.message⟩
  | .ok sentence => ⟨0, sentence.listing 0, ""⟩

/-- The player of a game in the example world. -/
def examplePlayer (width : Int) : Player := ⟨Example.world, Example.world.start, width⟩

/-- Play with the lines of an input. -/
def play (read : SentenceReader) (width : Int) (input : String) : Except Crash Outcome :=
  match transcript (examplePlayer width) read defaultPrompt input with
  | .ok text => .ok ⟨0, text, ""⟩
  | .error e => .error (.line e)

/-- The entry of reading a blank template.  It shows the blank as a list of no values. -/
def blankEntry : JournalEntry := ⟨.debug, .reader, "Parsed template []"⟩

/-- The entries of a task. -/
def Task.entries (read : SentenceReader) (input : String) : Task → List JournalEntry
  | .renderText (.value template) _ => renderingEntries Example.world template
  | .showOutline (.value template) => readingEntries template
  | .renderText .blank _ | .showOutline .blank => [blankEntry]
  | .showCommand text => commandEntries read text
  | .play width =>
      (examplePlayer width).startEntry ::
        (examplePlayer width).playEntries read (inputLines input)
  | _ => []

/-- Do a task, with an input for those that read one. -/
def Task.run (read : SentenceReader) (input : String) : Task → Except Crash Outcome
  | .help => .ok ⟨0, helpText, ""⟩
  | .renderText template width => .ok (CommandLine.renderText template.template width)
  | .showOutline template => CommandLine.showOutline template.template
  | .showCommand text => CommandLine.showCommand read text
  | .showSentence text => .ok (CommandLine.showSentence read text)
  | .play width => CommandLine.play read width input

/-- Run the program with a reader of sentences.  The journal comes before the report of the task. -/
def run (read : SentenceReader) (arguments : List String) (input : String) :
    Except Crash Outcome :=
  match Invocation.ofArguments arguments with
  | .error (.usage e) => .ok ⟨2, "", usageReport e⟩
  | .error (.blank o) => .error (.blank o)
  | .ok i => do
      let outcome ← i.task.run read input
      return { outcome with
        report := journalText i.threshold (i.task.entries read input) ++ outcome.report }

end TextAdventure.CommandLine
