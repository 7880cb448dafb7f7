import TextAdventure.Text.Decimal
import TextAdventure.Text.Wrap
import TextAdventure.Text.Quoted

/-!
# Command-line arguments

Options are written in full (`--text`), by any beginning that no other option
shares (`--te`), or as a single letter (`-v`).  A value follows as the next
argument or, after a full option, behind a sign of equality.  Letters of options
without values may be written together, also with a sign of equality behind the
first (`-vh`, `-v=h`).

Reading has two steps.  First every argument is classified on its own
(`classifyAll`): as an option, as an operand, as the marker `--` that makes
operands of all arguments after it, or as an option that does not exist.  Then
options take effect from left to right (`consume`).  A value has to be an operand.
An argument that looks like a negative number is an operand, and so is one with a
space in it, unless it names an option.  What no option takes is left over.

The marker is no value.  Behind a sign of equality (`--text=--`) it leaves the
option given but blank.
-/

namespace TextAdventure.CommandLine

/-! ## Options -/

/-- The options. -/
inductive Switch where
  /-- Show how the program is used. -/
  | help
  /-- Render a template. -/
  | text
  /-- Show the outline of the template instead. -/
  | outline
  /-- Show what a command means. -/
  | command
  /-- Show the sentence of the command instead. -/
  | sentence
  /-- The width of lines. -/
  | width
  /-- Keep a journal of important events. -/
  | verbose
  /-- Keep a journal of all events. -/
  | debug
deriving DecidableEq, Repr

/-- All options, in the order in which they are listed. -/
def Switch.all : List Switch :=
  [.help, .text, .outline, .command, .sentence, .width, .verbose, .debug]

/-- The full form of an option. -/
def Switch.long : Switch → String
  | .help => "--help"
  | .text => "--text"
  | .outline => "--ast"
  | .command => "--command"
  | .sentence => "--lark"
  | .width => "--width"
  | .verbose => "--verbose"
  | .debug => "--debug"

/-- The letter of an option. -/
def Switch.letter : Switch → Option Char
  | .help => some 'h'
  | .verbose => some 'v'
  | _ => none

/-- Decide whether an option takes a value. -/
def Switch.takesValue : Switch → Bool
  | .text | .command | .width => true
  | _ => false

/-- All forms of an option, as messages show them. -/
def Switch.forms (s : Switch) : String :=
  match s.letter with
  | some c => "-" ++ String.singleton c ++ "/" ++ s.long
  | none => s.long

/-- The option with a full form. -/
def Switch.ofLong (form : List Char) : Option Switch :=
  Switch.all.find? fun s => s.long.toList = form

/-- The option with a letter. -/
def Switch.ofLetter (c : Char) : Option Switch :=
  Switch.all.find? fun s => s.letter = some c

/-! ## Errors -/

/-- Why the arguments make no sense. -/
inductive UsageError where
  /-- An argument is the beginning of several options. -/
  | ambiguous (argument : String) (candidates : List Switch)
  /-- No value follows an option that takes one. -/
  | valueExpected (s : Switch)
  /-- A value is given to an option that takes none. -/
  | valueIgnored (s : Switch) (value : String)
  /-- The width is no whole number. -/
  | notNumber (value : String)
  /-- Arguments are left over. -/
  | unrecognized (arguments : List String)
  /-- A template and a command are given at once. -/
  | textWithCommand
  /-- An outline is asked for, but there is no template. -/
  | outlineWithoutText
  /-- A sentence is asked for, but there is no command. -/
  | sentenceWithoutCommand
  /-- The width is zero or less. -/
  | widthNotPositive
deriving DecidableEq, Repr

/-- What is said about arguments that make no sense. -/
def UsageError.message : UsageError → String
  | .ambiguous argument candidates =>
      "ambiguous option: " ++ argument ++ " could match " ++
        ", ".intercalate (candidates.map Switch.long)
  | .valueExpected s => "argument " ++ s.forms ++ ": expected one argument"
  | .valueIgnored s value =>
      "argument " ++ s.forms ++ ": ignored explicit argument " ++ Text.quote value
  | .notNumber value =>
      "argument " ++ Switch.width.forms ++ ": invalid int value: " ++ Text.quote value
  | .unrecognized arguments => "unrecognized arguments: " ++ " ".intercalate arguments
  | .textWithCommand => "--text cannot be combined with --command"
  | .outlineWithoutText => "--ast requires --text"
  | .sentenceWithoutCommand => "--lark requires --command"
  | .widthNotPositive => "--width must be positive"

/-! ## Classification -/

/-- What an argument is. -/
inductive ArgumentKind where
  /-- An option, by its letter or by its full form, with the value written into the argument. -/
  | option (s : Switch) (byLetter : Bool) (attached : Option (List Char))
  /-- An argument that may be a value. -/
  | operand
  /-- The marker that makes operands of all arguments after it. -/
  | marker
  /-- An option that does not exist. -/
  | unknown
deriving DecidableEq, Repr

/-- Decide whether characters are decimal digits, at least one. -/
def areDigits (cs : List Char) : Bool :=
  !cs.isEmpty && cs.all fun c => (Text.digitValue? c).isSome

/-- Decide whether an argument looks like a negative number: a sign, digits, and perhaps a point
with digits after it.  A line feed at the end does not count. -/
def looksNegative : List Char → Bool
  | '-' :: cs =>
      let body := if cs.getLast? = some '\n' then cs.dropLast else cs
      let whole := body.takeWhile (· ≠ '.')
      match body.dropWhile (· ≠ '.') with
      | [] => areDigits whole
      | _ :: fraction => (whole.isEmpty || areDigits whole) && areDigits fraction
  | _ => false

/-- The form of an option before a sign of equality, and the value behind it. -/
def splitAtSign (cs : List Char) : List Char × Option (List Char) :=
  match cs.dropWhile (· ≠ '=') with
  | [] => (cs, none)
  | _ :: value => (cs.takeWhile (· ≠ '='), some value)

/-- The option that characters are a form of, and whether by its letter. -/
def exactForm : List Char → Option (Switch × Bool)
  | ['-', c] => (Switch.ofLetter c).map (·, true)
  | cs => (Switch.ofLong cs).map (·, false)

/-- What an argument is that names no option. -/
def classifyOther (cs : List Char) : ArgumentKind :=
  if looksNegative cs || cs.contains ' ' then .operand else .unknown

/-- What an argument is that is neither the form of an option nor one with a value behind it. -/
def classifyPartial (argument : String) (cs : List Char) : Except UsageError ArgumentKind :=
  match cs with
  | '-' :: '-' :: _ =>
      match Switch.all.filter fun s => (splitAtSign cs).1.isPrefixOf s.long.toList with
      | [] => .ok (classifyOther cs)
      | [s] => .ok (.option s false (splitAtSign cs).2)
      | candidates => .error (.ambiguous argument candidates)
  | '-' :: c :: value =>
      match Switch.ofLetter c with
      | some s => .ok (.option s true (some value))
      | none => .ok (classifyOther cs)
  | _ => .ok .operand

/-- What an argument is, the marker aside. -/
def classify (argument : String) : Except UsageError ArgumentKind :=
  let cs := argument.toList
  if cs.head? = some '-' then
    match exactForm cs with
    | some (s, byLetter) => .ok (.option s byLetter none)
    | none =>
        match exactForm (splitAtSign cs).1, (splitAtSign cs).2 with
        | some (s, byLetter), some attached => .ok (.option s byLetter (some attached))
        | _, _ => classifyPartial argument cs
  else .ok .operand

/-- What each of the arguments is. -/
def classifyAll : List String → Except UsageError (List (String × ArgumentKind))
  | [] => .ok []
  | argument :: rest =>
      if argument = "--" then
        .ok ((argument, .marker) :: rest.map fun operand => (operand, .operand))
      else do
        let kind ← classify argument
        let kinds ← classifyAll rest
        return (argument, kind) :: kinds

/-! ## Effects of options -/

/-- What is given with an option that takes a value. -/
inductive Given (α : Type) where
  /-- A value. -/
  | value (a : α)
  /-- The marker in place of a value. -/
  | blank
deriving DecidableEq, Repr

/-- What characters behind a sign of equality give. -/
def Given.ofAttached (attached : List Char) : Given String :=
  if attached = ['-', '-'] then .blank else .value (String.ofList attached)

/-- What the options say. -/
structure Settings where
  /-- The template to render. -/
  text : Option (Given String)
  /-- Whether an outline is asked for. -/
  outline : Bool
  /-- The command to parse. -/
  command : Option (Given String)
  /-- Whether a sentence is asked for. -/
  sentence : Bool
  /-- The width of lines. -/
  width : Given Int
  /-- Whether important events are recorded. -/
  verbose : Bool
  /-- Whether all events are recorded. -/
  debug : Bool
  /-- The arguments that no option takes. -/
  extras : List String
deriving DecidableEq, Repr

/-- What holds where no option is given. -/
def Settings.default : Settings :=
  ⟨none, false, none, false, .value Text.defaultWidth, false, false, []⟩

/-- Why reading the arguments stops before their end. -/
inductive Stop where
  /-- The arguments make no sense. -/
  | usage (e : UsageError)
  /-- Help is asked for. -/
  | help
deriving DecidableEq, Repr

/-- The settings after an option without value. -/
def Settings.apply (settings : Settings) : Switch → Except Stop Settings
  | .help => .error .help
  | .outline => .ok { settings with outline := true }
  | .sentence => .ok { settings with sentence := true }
  | .verbose => .ok { settings with verbose := true }
  | .debug => .ok { settings with debug := true }
  | _ => .ok settings

/-- The settings after several options without value. -/
def Settings.applyAll (settings : Settings) : List Switch → Except Stop Settings
  | [] => .ok settings
  | s :: rest => do
      let next ← settings.apply s
      next.applyAll rest

/-- The settings after an option with what is given with it. -/
def Settings.applyGiven (settings : Settings) (s : Switch) (given : Given String) :
    Except Stop Settings :=
  match s, given with
  | .text, _ => .ok { settings with text := some given }
  | .command, _ => .ok { settings with command := some given }
  | .width, .blank => .ok { settings with width := .blank }
  | .width, .value value =>
      match Text.readInt value with
      | some width => .ok { settings with width := .value width }
      | none => .error (.usage (.notNumber value))
  | _, _ => .ok settings

/-- The settings with one more argument left over. -/
def Settings.leave (settings : Settings) (argument : String) : Settings :=
  { settings with extras := settings.extras ++ [argument] }

/-- The option `s` without value and the options whose letters are written behind it.  What begins
with the letter of no option is a value, which the option before it cannot take. -/
def readLetters (s : Switch) : List Char → Except UsageError (List Switch)
  | [] => .ok [s]
  | c :: cs =>
      match Switch.ofLetter c with
      | none => .error (.valueIgnored s (String.ofList (c :: cs)))
      | some t => (readLetters t cs).map (s :: ·)

/-- The settings after an option with characters written into its argument.  Behind the letter of
an option without value they are letters, at least one, and all are read before any takes effect. -/
def Settings.applyAttached (settings : Settings) (s : Switch) (byLetter : Bool)
    (attached : List Char) : Except Stop Settings :=
  if s.takesValue then settings.applyGiven s (Given.ofAttached attached)
  else if byLetter && !attached.isEmpty then
    match readLetters s attached with
    | .error e => .error (.usage e)
    | .ok switches => settings.applyAll switches
  else .error (.usage (.valueIgnored s (String.ofList attached)))

/-- The settings after classified arguments. -/
def Settings.consume (settings : Settings) : List (String × ArgumentKind) → Except Stop Settings
  | [] => .ok settings
  | (_, .option s byLetter (some attached)) :: rest => do
      let next ← settings.applyAttached s byLetter attached
      next.consume rest
  | (_, .option s _ none) :: rest =>
      if s.takesValue then
        match rest with
        | (value, .operand) :: rest => do
            let next ← settings.applyGiven s (.value value)
            next.consume rest
        | _ => .error (.usage (.valueExpected s))
      else do
        let next ← settings.apply s
        next.consume rest
  | (argument, _) :: rest => (settings.leave argument).consume rest

/-- Read the arguments. -/
def Settings.ofArguments (arguments : List String) : Except Stop Settings := do
  let kinds ← (classifyAll arguments).mapError .usage
  let settings ← Settings.default.consume kinds
  if settings.extras = [] then return settings
  else .error (.usage (.unrecognized settings.extras))

/-! ## Tests -/

example : readLetters .verbose ['h', 'v'] = .ok [.verbose, .help, .verbose] := rfl
example : readLetters .verbose ['h', '5'] = .error (.valueIgnored .help "5") := rfl
example : (Settings.ofArguments ["--te=--"]).map Settings.text = .ok (some .blank) := by cbv
example : (Settings.ofArguments ["-v=v", "--text", "x"]).map Settings.text =
    .ok (some (.value "x")) := by cbv
example : Settings.ofArguments ["--text", "--"] = .error (.usage (.valueExpected .text)) := by cbv
example : Settings.ofArguments ["x", "--", "-v"] =
    .error (.usage (.unrecognized ["x", "--", "-v"])) := by cbv

end TextAdventure.CommandLine
