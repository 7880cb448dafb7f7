import TextAdventure.Template.Cursor
import TextAdventure.Template.Node

/-!
# Reading expressions

An expression is a quoted string, a name, or a call in parentheses.  It is read
one character at a time by a machine that keeps the calls whose closing
parenthesis it has not met, the innermost one first.  Each of them holds its head
and the arguments read so far.  Recursion is therefore on the text alone, and the
number of calls open at once is the length of a list.  There is room for a limited
number of them, and reading overflows at the next.

A name ends before the first character that cannot belong to it.  All other
expressions end with their own last character.

When reading fails, the failure keeps the text from the character that could not
be used, or no text if the end was met too early.  An overflow is a failure of its
own: nothing is wrong with the text yet.  `Reader.suffix_of_read` says that what is
left after an expression is an end of the text.
-/

namespace TextAdventure.Template

/-! ## Characters -/

/-- Decide whether a character may begin a name. -/
def isNameStart (c : Char) : Bool := c.isAlpha || c = '_'

/-- Decide whether a character may stand in a name after the first. -/
def isNameChar (c : Char) : Bool := c.isAlphanum || c = '_' || c = '.'

/-- Decide whether a character begins and ends quoted strings. -/
def isQuote (c : Char) : Bool := c = '\'' || c = '"'

/-! ## Faults -/

/-- What was being read when the text ended. -/
inductive Construct where
  | expression
  | identifier
  | callExpression
  | stringLiteral
deriving DecidableEq, Repr

/-- What a construct is called in messages. -/
def Construct.description : Construct → String
  | .expression => "expression"
  | .identifier => "identifier"
  | .callExpression => "call expression"
  | .stringLiteral => "string literal"

/-- Why a text is not a template. -/
inductive Fault where
  /-- There is no room for so many open calls. -/
  | tooDeep
  /-- The text ends inside a construct. -/
  | endOfText (inside : Construct)
  /-- No expression begins with the character. -/
  | unexpected (c : Char)
  /-- A call does not begin with a name. -/
  | nameExpected
deriving DecidableEq, Repr

/-- What is said about a text that is not a template. -/
def Fault.message : Fault → String
  | .tooDeep => "expression nested too deeply"
  | .endOfText inside => "unexpected end of string in " ++ inside.description
  | .unexpected c => "unexpected character in expression: " ++ String.singleton c
  | .nameExpected => "identifier expected"

/-- How reading fails, with the text from the character that it fails at. -/
inductive Failure where
  /-- There is no room for another open call. -/
  | overflow (rest : List Char)
  /-- A fault is found in the text. -/
  | malformed (fault : Fault) (rest : List Char)
deriving DecidableEq, Repr

/-- The text that was not used. -/
def Failure.rest : Failure → List Char
  | .overflow rest => rest
  | .malformed _ rest => rest

/-! ## The machine -/

/-- A call whose closing parenthesis has not been read. -/
structure OpenCall where
  /-- The name at the head of the call. -/
  head : String
  /-- The arguments read so far, the last one first. -/
  arguments : List Node
deriving DecidableEq, Repr

/-- The call with one more argument. -/
def OpenCall.push (call : OpenCall) (argument : Node) : OpenCall :=
  ⟨call.head, argument :: call.arguments⟩

/-- The call when its closing parenthesis has been read. -/
def OpenCall.close (call : OpenCall) : Node := .call (.name call.head) call.arguments.reverse

/-- What is being read inside the open calls.  Characters are kept with the last one first. -/
inductive Mode where
  /-- An expression is due outside of all calls. -/
  | due
  /-- The head of a call is due. -/
  | head
  /-- The head of a call has begun. -/
  | headName (letters : List Char)
  /-- An argument or the end of a call is due. -/
  | arguments (call : OpenCall)
  /-- A quoted string has begun. -/
  | quoted (mark : Char) (letters : List Char)
  /-- A name has begun. -/
  | name (letters : List Char)
deriving DecidableEq, Repr

/-- The state of the machine between two characters. -/
structure Reader where
  /-- The open calls around what is being read, the innermost one first. -/
  outer : List OpenCall
  /-- What is being read. -/
  mode : Mode
deriving DecidableEq, Repr

/-- The machine before the first character of an expression. -/
def Reader.start : Reader := ⟨[], .due⟩

/-- What one character leads to. -/
inductive Outcome where
  /-- The expression goes on. -/
  | more (r : Reader)
  /-- The expression ends with the character. -/
  | done (n : Node)
  /-- The expression has ended before the character. -/
  | doneBefore (n : Node)
  /-- There is no room for the call that the character opens. -/
  | overflow
  /-- The character cannot be used. -/
  | fault (f : Fault)
deriving DecidableEq, Repr

/-- The text of letters kept with the last one first. -/
def spell (letters : List Char) : String := String.ofList letters.reverse

/-- An expression inside open calls is complete: it is an argument of the innermost one, or the
whole expression. -/
def complete (outer : List OpenCall) (n : Node) : Outcome :=
  match outer with
  | [] => .done n
  | call :: outer => .more ⟨outer, .arguments (call.push n)⟩

/-- An expression inside open calls begins with a character. -/
def beginExpression (limit : Nat) (outer : List OpenCall) (c : Char) : Outcome :=
  if c = '(' then if outer.length < limit then .more ⟨outer, .head⟩ else .overflow
  else if isQuote c then .more ⟨outer, .quoted c []⟩
  else if isNameStart c then .more ⟨outer, .name [c]⟩
  else .fault (.unexpected c)

/-- A character where an argument or the end of a call is due. -/
def stepArguments (limit : Nat) (outer : List OpenCall) (call : OpenCall) (c : Char) : Outcome :=
  if isSpace c then .more ⟨outer, .arguments call⟩
  else if c = ')' then complete outer call.close
  else beginExpression limit (call :: outer) c

/-- Read one character, with at most `limit` calls open at once. -/
def Reader.step (limit : Nat) (r : Reader) (c : Char) : Outcome :=
  match r.mode with
  | .due => if isSpace c then .more r else beginExpression limit r.outer c
  | .head =>
      if isSpace c then .more r
      else if isNameStart c then .more ⟨r.outer, .headName [c]⟩
      else .fault .nameExpected
  | .headName letters =>
      if isNameChar c then .more ⟨r.outer, .headName (c :: letters)⟩
      else stepArguments limit r.outer ⟨spell letters, []⟩ c
  | .arguments call => stepArguments limit r.outer call c
  | .quoted mark letters =>
      if c = mark then complete r.outer (.quoted (spell letters))
      else .more ⟨r.outer, .quoted mark (c :: letters)⟩
  | .name letters =>
      if isNameChar c then .more ⟨r.outer, .name (c :: letters)⟩
      else match r.outer with
        | [] => .doneBefore (.name (spell letters))
        | call :: outer => stepArguments limit outer (call.push (.name (spell letters))) c

/-- The expression that ends with the text, or the construct that the text ends in. -/
def Reader.finish (r : Reader) : Except Fault Node :=
  match r.mode, r.outer with
  | .due, _ => .error (.endOfText .expression)
  | .head, _ => .error (.endOfText .identifier)
  | .quoted .., _ => .error (.endOfText .stringLiteral)
  | .name letters, [] => .ok (.name (spell letters))
  | _, _ => .error (.endOfText .callExpression)

/-- Read an expression to its end, and give it with the text after it. -/
def Reader.read (limit : Nat) (r : Reader) : List Char → Except Failure (Node × List Char)
  | [] =>
      match r.finish with
      | .ok n => .ok (n, [])
      | .error f => .error (.malformed f [])
  | c :: cs =>
      match r.step limit c with
      | .more r => r.read limit cs
      | .done n => .ok (n, cs)
      | .doneBefore n => .ok (n, c :: cs)
      | .overflow => .error (.overflow (c :: cs))
      | .fault f => .error (.malformed f (c :: cs))

/-! ## What is left -/

theorem Reader.read_nil (limit : Nat) (r : Reader) :
    r.read limit [] = match r.finish with
      | .ok n => .ok (n, [])
      | .error f => .error (.malformed f []) := rfl

theorem Reader.read_of_more {limit : Nat} {r r' : Reader} {c : Char} {cs : List Char}
    (h : r.step limit c = .more r') : r.read limit (c :: cs) = r'.read limit cs := by
  rw [Reader.read, h]

theorem Reader.read_of_done {limit : Nat} {r : Reader} {c : Char} {cs : List Char} {n : Node}
    (h : r.step limit c = .done n) : r.read limit (c :: cs) = .ok (n, cs) := by
  rw [Reader.read, h]

theorem Reader.read_of_doneBefore {limit : Nat} {r : Reader} {c : Char} {cs : List Char} {n : Node}
    (h : r.step limit c = .doneBefore n) : r.read limit (c :: cs) = .ok (n, c :: cs) := by
  rw [Reader.read, h]

theorem Reader.read_of_overflow {limit : Nat} {r : Reader} {c : Char} {cs : List Char}
    (h : r.step limit c = .overflow) : r.read limit (c :: cs) = .error (.overflow (c :: cs)) := by
  rw [Reader.read, h]

theorem Reader.read_of_fault {limit : Nat} {r : Reader} {c : Char} {cs : List Char} {f : Fault}
    (h : r.step limit c = .fault f) :
    r.read limit (c :: cs) = .error (.malformed f (c :: cs)) := by
  rw [Reader.read, h]

/-- What is left after an expression is an end of the text. -/
theorem Reader.suffix_of_read {limit : Nat} {r : Reader} {cs rest : List Char} {n : Node}
    (h : r.read limit cs = .ok (n, rest)) : rest <:+ cs := by
  induction cs generalizing r with
  | nil =>
    rw [Reader.read_nil] at h
    split at h
    · simp only [Except.ok.injEq, Prod.mk.injEq] at h
      exact h.2 ▸ List.suffix_refl _
    · cases h
  | cons c cs ih =>
    cases hs : r.step limit c with
    | more r' =>
      rw [Reader.read_of_more hs] at h
      exact (ih h).trans (List.suffix_cons c cs)
    | done m =>
      rw [Reader.read_of_done hs, Except.ok.injEq, Prod.mk.injEq] at h
      rw [← h.2]
      exact List.suffix_cons c cs
    | doneBefore m =>
      rw [Reader.read_of_doneBefore hs, Except.ok.injEq, Prod.mk.injEq] at h
      exact h.2 ▸ List.suffix_refl _
    | overflow => rw [Reader.read_of_overflow hs] at h; cases h
    | fault f => rw [Reader.read_of_fault hs] at h; cases h

end TextAdventure.Template
