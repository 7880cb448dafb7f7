import TextAdventure.Game.Transcript

/-!
# Journals

A journal records what happens inside the game for those who run it.  The
entries of an activity are a function of what the activity works on, given
beside the activity itself: reading and rendering templates, parsing commands,
looking, and playing.
-/

namespace TextAdventure

/-! ## Entries -/

/-- How important an entry is. -/
inductive Level where
  /-- For those who search for faults. -/
  | debug
  /-- For those who watch. -/
  | info
deriving DecidableEq, Repr

/-- The name of a level. -/
def Level.title : Level → String
  | .debug => "DEBUG"
  | .info => "INFO"

/-- Decide whether entries of a level are kept at a threshold. -/
def Level.passes (level threshold : Level) : Bool := decide (threshold = .debug ∨ level = .info)

/-- Where an entry comes from. -/
inductive Origin where
  | reader
  | evaluator
  | command
  | player
  | session
deriving DecidableEq, Repr

/-- The name of an origin. -/
def Origin.title : Origin → String
  | .reader => "mudstuck._parse"
  | .evaluator => "mudstuck._eval"
  | .command => "mudstuck._command"
  | .player => "mudstuck._player"
  | .session => "mudstuck.repl"

/-- An entry of a journal. -/
structure JournalEntry where
  /-- How important it is. -/
  level : Level
  /-- Where it comes from. -/
  origin : Origin
  /-- What it says. -/
  message : String
deriving DecidableEq, Repr

/-- The line of an entry. -/
def JournalEntry.line (e : JournalEntry) : String :=
  e.level.title ++ " " ++ e.origin.title ++ ": " ++ e.message

/-- The text of the entries that are kept at a threshold, if there is one. -/
def journalText (threshold : Option Level) (entries : List JournalEntry) : String :=
  match threshold with
  | none => ""
  | some t => unlines ((entries.filter fun e => e.level.passes t).map JournalEntry.line)

/-! ## Values in full -/

/-- A truth value in full. -/
def showFlag (b : Bool) : String := if b then "True" else "False"

/-- An id in full. -/
def EntityId.inFull : EntityId → String
  | .anonymous => "None"
  | .number value => toString value
  | .label text => Text.quote text
  | .unique bits => "UUID('" ++ uniqueText bits ++ "')"
  | .other _ _ full => full

/-- A function in full. -/
def Template.FunctionValue.inFull (f : FunctionValue) : String :=
  "FunctionValue(function=<Function." ++ f.builtin.word.toUpper ++ ": " ++
    Text.quote f.builtin.word ++ ">, name=" ++ Text.quote f.name ++ ", special=" ++
    showFlag f.special ++ s!", min_args={f.minArguments}, max_args={f.maxArguments})"

/-- A value in full.  Of a deferred expression only the form is shown. -/
def Template.Value.inFull : Value → String
  | .text content => "StringValue(text=" ++ Text.quote content ++ ")"
  | .flag holds => "BoolValue(flag=" ++ showFlag holds ++ ")"
  | .entity id => "EntityReference(entity_id=" ++ id.inFull ++ ")"
  | .function f => f.inFull
  | .deferred node => "DeferredExpression(node=" ++ node.form ++ ")"

/-! ## Activities -/

/-- The entries of reading a template. -/
def readingEntries (template : String) : List JournalEntry :=
  match Template.parse template with
  | .ok _ => [⟨.debug, .reader, "Parsed template " ++ Text.quote template⟩]
  | .error _ => []

/-- The entries of evaluating a template whose value is no text. -/
def valueEntries (w : World) (template : String) : List JournalEntry :=
  match Template.parse template with
  | .error _ => []
  | .ok node =>
      match Template.evaluate w node with
      | .error _ => []
      | .ok (.text _) => []
      | .ok value =>
          [⟨.debug, .evaluator,
            "Template " ++ Text.quote template ++ " produced " ++ value.inFull⟩]

/-- The entries of rendering a template. -/
def renderingEntries (w : World) (template : String) : List JournalEntry :=
  readingEntries template ++ valueEntries w template

/-- The entries of showing a template to a player. -/
def Player.readEntries (p : Player) (template : String) : List JournalEntry :=
  renderingEntries p.world template ++
    match Template.render p.world template with
    | .ok _ => []
    | .error e =>
        [⟨.debug, .player, "Cannot render " ++ Text.quote template ++ ": " ++ e.message⟩]

/-- The entries of showing the entity with an id to a player. -/
def Player.viewEntries (p : Player) (id : EntityId) : List JournalEntry :=
  match p.world.entity? id with
  | none => []
  | some e => p.readEntries e.shortDescription ++ p.readEntries e.longDescription

/-- The entries of parsing a command. -/
def commandEntries (read : SentenceReader) (text : String) : List JournalEntry :=
  match Command.parse read text with
  | .ok c =>
      [⟨.debug, .command, "Parsed command " ++ Text.quote text ++ " as " ++ c.sentence⟩]
  | .error _ => []

/-- The entries of answering a request. -/
def Player.answerEntries (p : Player) (read : SentenceReader) : Request → List JournalEntry
  | .look => p.viewEntries p.location
  | .describe dotted =>
      match p.world.lookupDotted dotted with
      | none => []
      | some id => p.viewEntries id
  | .command text => commandEntries read text
  | _ => []

/-- The entries of answering a line. -/
def Player.lineEntries (p : Player) (read : SentenceReader) (line : String) : List JournalEntry :=
  match Request.ofLine line with
  | .nothing => []
  | request => ⟨.debug, .session, "Input " ++ Text.quote line⟩ :: p.answerEntries read request

/-- The entry at the start of a session. -/
def Player.startEntry (p : Player) : JournalEntry :=
  ⟨.info, .session, "Starting session in " ++ p.world.name⟩

/-- The entries of answering lines, up to the first that asks to quit. -/
def Player.playEntries (p : Player) (read : SentenceReader) : List String → List JournalEntry
  | [] => []
  | line :: rest =>
      p.lineEntries read line ++
        if Request.ofLine line = .quit then [] else p.playEntries read rest

end TextAdventure
