import TextAdventure.Template.Value
import TextAdventure.World.Names

/-!
# Evaluation

A tree is evaluated in a world.  A name is that of a builtin function or else
stands for an entity.  A call evaluates its head, checks the number of arguments
before it evaluates any of them, and evaluates them from left to right, unless
the function is special.  The segments of a sequence have to be texts and are
put together.

Calls inside calls are limited: `evaluateWithin w d` allows `d` of them.  One
level of evaluation is `evaluateStep`, which takes the evaluation of the nodes
below a call as an argument.  Text, names and the segments of a sequence need no
level of their own.
-/

namespace TextAdventure.Template

/-! ## Errors -/

/-- The bounds on the number of arguments. -/
inductive ArityBound where
  | atLeast
  | atMost
deriving DecidableEq, Repr

/-- Why a tree has no value. -/
inductive EvalError where
  /-- A segment of a sequence is no text. -/
  | notConcatenable
  /-- A name is neither that of a function nor that of an entity. -/
  | undefinedName (token : String)
  /-- The head of a call is no function. -/
  | notFunction
  /-- A function is called with too few or too many arguments. -/
  | arity (name : String) (bound : ArityBound) (limit : Int) (count : Nat)
  /-- A function that is not special is applied to a deferred expression. -/
  | deferredArgument (name : String)
  /-- A special function is applied to something evaluated. -/
  | alreadyEvaluated (what : String)
  /-- The condition of `if` is no truth value. -/
  | conditionNotFlag
  /-- The argument of a function about entities is no entity. -/
  | notEntity (function : Builtin)
  /-- A function reads an argument that it was not given. -/
  | missingArgument
  /-- A node is of no form of the language. -/
  | unknownNode
  /-- Calls are nested beyond the limit. -/
  | tooDeep
  /-- The value of a whole template is no text. -/
  | notText (value : Value)
deriving DecidableEq, Repr

/-- What is said about a tree without value. -/
def EvalError.message : EvalError → String
  | .notConcatenable => "invalid operand for concatenation"
  | .undefinedName token => "undefined identifier: " ++ token
  | .notFunction => "non-function in function position"
  | .arity name .atLeast limit count =>
      s!"function {name} requires at least {limit} arguments, got {count}"
  | .arity name .atMost limit count =>
      s!"function {name} requires at most {limit} arguments, got {count}"
  | .deferredArgument name => "internal error, deferred argument passed to " ++ name
  | .alreadyEvaluated what => "internal error, " ++ what ++ " already evaluated"
  | .conditionNotFlag => "if expects boolean expression as first argument"
  | .notEntity function => "function " ++ function.word ++ " requires a name of an entity"
  | .missingArgument => "list index out of range"
  | .unknownNode => "internal error, unknown node"
  | .tooDeep => "expression nested too deeply"
  | .notText value =>
      match value.format with
      | .ok shown => "invalid value: " ++ shown
      | .error e => e.message

/-- The outcome of an evaluation. -/
abbrev Result := Except EvalError Value

/-! ## Application -/

/-- Check the number of arguments of a call. -/
def checkArity (f : FunctionValue) (count : Nat) : Except EvalError Unit :=
  if count < f.minArguments then .error (.arity f.name .atLeast f.minArguments count)
  else if f.maxArguments < count then .error (.arity f.name .atMost f.maxArguments count)
  else .ok ()

/-- The argument at a position. -/
def argument (arguments : List Value) (position : Nat) : Result :=
  match arguments[position]? with
  | some value => .ok value
  | none => .error .missingArgument

/-- Evaluate an argument that was handed over deferred. -/
def forceWith (evaluate : Node → Result) (what : String) : Value → Result
  | .deferred node => evaluate node
  | _ => .error (.alreadyEvaluated what)

/-- Evaluate the condition, then the chosen branch only. -/
def applyConditional (evaluate : Node → Result) (arguments : List Value) : Result := do
  let condition ← argument arguments 0
  let chosen ← forceWith evaluate "if condition" condition
  match chosen with
  | .flag holds => do
      let branch ← argument arguments (if holds then 1 else 2)
      forceWith evaluate "if expression" branch
  | _ => .error .conditionNotFlag

/-- Apply a function about entities to its first argument. -/
def applyPredicate (function : Builtin) (holds : EntityId → Bool) (arguments : List Value) :
    Result := do
  let first ← argument arguments 0
  match first with
  | .entity id => .ok (.flag (holds id))
  | _ => .error (.notEntity function)

/-- Run a builtin function. -/
def runBuiltin (w : World) (evaluate : Node → Result) (arguments : List Value) :
    Builtin → Result
  | .conditional => applyConditional evaluate arguments
  | .closed => applyPredicate .closed w.isClosed arguments
  | .locked => applyPredicate .locked w.isLocked arguments

/-- Apply a value to arguments. -/
def applyWith (w : World) (evaluate : Node → Result) (arguments : List Value) : Value → Result
  | .function f => do
      checkArity f arguments.length
      if !f.special && arguments.any Value.isDeferred then .error (.deferredArgument f.name)
      else runBuiltin w evaluate arguments f.builtin
  | _ => .error .notFunction

/-! ## Evaluation -/

/-- The value of a name. -/
def evaluateName (w : World) (token : String) : Result :=
  match builtin? token with
  | some b => .ok (.function b.value)
  | none =>
      match w.lookupDotted token with
      | some id => .ok (.entity id)
      | none => .error (.undefinedName token)

/-- The values of nodes from left to right, up to the first error. -/
def evaluateAll (evaluate : Node → Result) : List Node → Except EvalError (List Value)
  | [] => .ok []
  | n :: rest => do
      let value ← evaluate n
      let values ← evaluateAll evaluate rest
      return value :: values

/-- The texts of nodes from left to right, put together. -/
def concatenate (evaluate : Node → Result) : List Node → Except EvalError String
  | [] => .ok ""
  | n :: rest => do
      let value ← evaluate n
      match value with
      | .text content => do
          let texts ← concatenate evaluate rest
          return content ++ texts
      | _ => .error .notConcatenable

/-- The value of a call. -/
def evaluateCall (w : World) (evaluate : Node → Result) (callee : Node) (arguments : List Node) :
    Result := do
  let head ← evaluate callee
  match head with
  | .function f => do
      checkArity f arguments.length
      if f.special then applyWith w evaluate (arguments.map .deferred) (.function f)
      else do
        let values ← evaluateAll evaluate arguments
        applyWith w evaluate values (.function f)
  | _ => .error .notFunction

/-- The value of a segment.  A sequence is no segment: it is taken apart before. -/
def evaluateSegment (w : World) (evaluate : Node → Result) : Node → Result
  | .empty => .ok (.text "")
  | .literal text => .ok (.text text)
  | .quoted text => .ok (.text text)
  | .name token => evaluateName w token
  | .call callee arguments => evaluateCall w evaluate callee arguments
  | .sequence .. | .unknown => .error .unknownNode

/-- The value of a node, given the evaluation of the nodes below a call. -/
def evaluateStep (w : World) (evaluate : Node → Result) : Node → Result
  | .sequence left right => do
      let text ← concatenate (evaluateSegment w evaluate) (Node.sequence left right).segments
      return .text text
  | n => evaluateSegment w evaluate n

/-- The value of a node with at most `depth` calls inside each other. -/
def evaluateWithin (w : World) : (depth : Nat) → Node → Result
  | 0 => evaluateStep w fun _ => .error .tooDeep
  | depth + 1 => evaluateStep w (evaluateWithin w depth)

/-- The most calls that may lie inside each other when a template is evaluated.  A call of `if`
takes five frames: for its evaluation, for the call, for the application, for the choice and for the
argument that is forced.  Other calls take three, but they are not told apart here, so calls of them
alone are given less room than there is. -/
def maxCallDepth : Nat := freeFrames / 5

/-- The value of a node in a world. -/
def evaluate (w : World) (n : Node) : Result := evaluateWithin w maxCallDepth n

/-- Apply a value to arguments in a world. -/
def apply (w : World) (function : Value) (arguments : List Value) : Result :=
  applyWith w (evaluate w) arguments function

/-- Evaluate a deferred expression in a world.  `what` tells what it is in messages. -/
def force (w : World) (what : String) (value : Value) : Result :=
  forceWith (evaluate w) what value

end TextAdventure.Template
