import TextAdventure.Template.Evaluation

/-!
# Calls

What a call uses of the trees below it.  It uses the outcomes of its head and of its
arguments and nothing else about them (`evaluateCall_congr`).  It does not use its
arguments at all unless its head is a function that takes so many of them
(`evaluateCall_congr_of_not_takes`), and a call of `if` uses its condition and the
chosen branch (`evaluateCall_conditional`).
-/

namespace TextAdventure.Template

variable {w : World} {evaluate : Node → Result}

/-! ## Numbers of arguments and the branches of `if` -/

theorem checkArity_eq_ok_iff (f : FunctionValue) (count : Nat) :
    checkArity f count = .ok () ↔ f.minArguments ≤ count ∧ (count : Int) ≤ f.maxArguments := by
  unfold checkArity
  split
  · next hfew =>
    simp only [reduceCtorEq, false_iff]
    omega
  · split
    · next hmany =>
      simp only [reduceCtorEq, false_iff]
      omega
    · simp only [true_iff]
      omega

/-- `if` evaluates its condition and one branch. -/
theorem applyConditional_eq (condition a b : Value) :
    applyConditional evaluate [condition, a, b] = (do
      let chosen ← forceWith evaluate "if condition" condition
      match chosen with
      | .flag holds => forceWith evaluate "if expression" (if holds then a else b)
      | _ => .error .conditionNotFlag) := by
  show (forceWith evaluate "if condition" condition >>= _) = _
  congr 1
  funext chosen
  cases chosen with
  | flag holds => cases holds <;> rfl
  | _ => rfl

/-! ## Arguments by their outcomes -/

theorem evaluateAll_congr {as as' : List Node} (h : as'.map evaluate = as.map evaluate) :
    evaluateAll evaluate as' = evaluateAll evaluate as := by
  induction as generalizing as' with
  | nil =>
    obtain rfl := List.map_eq_nil_iff.mp h
    rfl
  | cons a as ih =>
    obtain ⟨a', rest, rfl, ha, hrest⟩ := List.map_eq_cons_iff.mp h
    simp only [evaluateAll, ha, ih hrest]

/-- Forcing a deferred argument gives its outcome. -/
theorem force_argument_deferred (as : List Node) (position : Nat) (what : String) :
    (argument (as.map .deferred) position >>= forceWith evaluate what) =
      ((as.map evaluate)[position]?).getD (.error .missingArgument) := by
  simp only [argument, List.getElem?_map]
  cases as[position]? <;> rfl

theorem applyConditional_deferred (as : List Node) :
    applyConditional evaluate (as.map .deferred) = (do
      let chosen ← ((as.map evaluate)[0]?).getD (.error .missingArgument)
      match chosen with
      | .flag holds =>
          ((as.map evaluate)[if holds then 1 else 2]?).getD (.error .missingArgument)
      | _ => .error .conditionNotFlag) := by
  rw [← force_argument_deferred as 0 "if condition", bind_assoc]
  show _ = _ >>= fun condition => forceWith evaluate "if condition" condition >>= _
  unfold applyConditional
  congr 1
  funext condition
  congr 1
  funext chosen
  cases chosen with
  | flag holds => exact force_argument_deferred as _ "if expression"
  | _ => rfl

theorem applyWith_deferred_congr {as as' : List Node} (h : as'.map evaluate = as.map evaluate)
    (head : Value) : applyWith w evaluate (as'.map .deferred) head =
      applyWith w evaluate (as.map .deferred) head := by
  have hlength : as'.length = as.length := by simpa using congrArg List.length h
  -- A function about entities only sees whether there is a first argument.
  have hpredicate : ∀ (function : Builtin) (holds : EntityId → Bool),
      applyPredicate function holds (as'.map .deferred) =
        applyPredicate function holds (as.map .deferred) := by
    intro function holds
    cases as <;> cases as' <;> first | rfl | cases hlength
  have hany : ∀ ns : List Node, (ns.map Value.deferred).any Value.isDeferred = !ns.isEmpty := by
    intro ns
    cases ns <;> simp [Value.isDeferred]
  have hempty : as'.isEmpty = as.isEmpty := by
    cases as <;> cases as' <;> first | rfl | cases hlength
  have hrun : ∀ b : Builtin, runBuiltin w evaluate (as'.map .deferred) b =
      runBuiltin w evaluate (as.map .deferred) b := by
    intro b
    cases b with
    | conditional => simp only [runBuiltin, applyConditional_deferred, h]
    | closed => exact hpredicate .closed w.isClosed
    | locked => exact hpredicate .locked w.isLocked
  cases head with
  | function f => simp only [applyWith, List.length_map, hlength, hany, hempty, hrun]
  | _ => rfl

/-! ## Calls by the outcomes below them -/

/-- A call is evaluated alike whenever its head and its arguments are. -/
theorem evaluateCall_congr {f f' : Node} {as as' : List Node} (hf : evaluate f' = evaluate f)
    (has : as'.map evaluate = as.map evaluate) :
    evaluateCall w evaluate f' as' = evaluateCall w evaluate f as := by
  have hlength : as'.length = as.length := by simpa using congrArg List.length has
  simp only [evaluateCall, hf, hlength, applyWith_deferred_congr has, evaluateAll_congr has]

theorem evaluateCall_of_error {f : Node} {e : EvalError} (h : evaluate f = .error e)
    (as : List Node) : evaluateCall w evaluate f as = .error e := by
  rw [evaluateCall, h]
  rfl

/-- The outcome is a function that takes this many arguments. -/
def Takes (count : Nat) (head : Result) : Prop :=
  ∃ f : FunctionValue, head = .ok (.function f) ∧
    f.minArguments ≤ count ∧ (count : Int) ≤ f.maxArguments

/-- Arguments of a call that is refused at its head do not matter. -/
theorem evaluateCall_congr_of_not_takes {f f' : Node} {as as' : List Node}
    (hf : evaluate f' = evaluate f) (hlength : as'.length = as.length)
    (h : ¬ Takes as.length (evaluate f)) :
    evaluateCall w evaluate f' as' = evaluateCall w evaluate f as := by
  simp only [evaluateCall, hf, hlength]
  cases hhead : evaluate f with
  | error e => rfl
  | ok head =>
    cases head with
    | function g =>
      cases hcheck : checkArity g as.length with
      | error e =>
        show (checkArity g as.length >>= _) = (checkArity g as.length >>= _)
        rw [hcheck]
        rfl
      | ok _ => exact absurd ⟨g, hhead, (checkArity_eq_ok_iff g _).mp hcheck⟩ h
    | _ => rfl

/-- A call of `if` evaluates its condition and then the chosen branch. -/
theorem evaluateCall_conditional {f : Node}
    (hf : evaluate f = .ok (.function Builtin.conditional.value)) (condition a b : Node) :
    evaluateCall w evaluate f [condition, a, b] = (do
      let chosen ← evaluate condition
      match chosen with
      | .flag holds => evaluate (if holds then a else b)
      | _ => .error .conditionNotFlag) := by
  rw [evaluateCall, hf]
  show applyConditional evaluate [.deferred condition, .deferred a, .deferred b] = _
  rw [applyConditional_eq]
  show (evaluate condition >>= _) = _
  congr 1
  funext chosen
  cases chosen with
  | flag holds => cases holds <;> rfl
  | _ => rfl

end TextAdventure.Template
