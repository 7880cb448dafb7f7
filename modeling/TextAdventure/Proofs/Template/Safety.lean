import TextAdventure.Proofs.Template.Canonical
import TextAdventure.Proofs.Template.TwoRuns
import TextAdventure.Proofs.World.Names
import TextAdventure.World.Example

/-!
# Safety of evaluation

Some errors tell of a fault of the template: a name without meaning, too many
arguments.  These are the ordinary errors.  The others could only come from evaluation
itself, such as an argument that is read but was not given.

The invariant is on outcomes: the values that go through calls are proper, so a
function among them is one of the table and takes exactly the arguments that it reads.
It holds of a run if it holds of the run next to itself (`yields_iff_mirrors`), which
gives it for a function that is applied (`yields_applyWith`) and for all levels of
evaluation (`yields_evaluateWithin`), whatever else is counted as a bad error.
The limit on calls and nodes of no form are two such errors, and each of them
needs a tree that is nested too deeply or that is not known.
-/

namespace TextAdventure.Template

variable {α β : Type}

/-! ## Outcomes -/

/-- The values that a whole tree may have in a world. -/
inductive Value.IsProper (w : World) : Value → Prop where
  | text (content : String) : IsProper w (.text content)
  | flag (holds : Bool) : IsProper w (.flag holds)
  | entity {id : EntityId} (h : ∃ e ∈ w.entities, e.id = id) : IsProper w (.entity id)
  | function (b : Builtin) : IsProper w (.function b.value)

theorem Value.isProper_iff {w : World} {v : Value} :
    v.IsProper w ↔ v.IsWithin fun id => ∃ e ∈ w.entities, e.id = id := by
  constructor
  · rintro (content | holds | hid | b)
    · exact .text content
    · exact .flag holds
    · exact .entity hid
    · exact .function b
  · rintro (content | holds | hid | b)
    · exact .text content
    · exact .flag holds
    · exact .entity hid
    · exact .function b

/-- The outcome is a good value or a bad error. -/
def Yields (good : α → Prop) (bad : EvalError → Prop) : Except EvalError α → Prop
  | .ok a => good a
  | .error e => bad e

theorem Yields.ok_or_error {good : α → Prop} {bad : EvalError → Prop} {x : Except EvalError α}
    (h : Yields good bad x) : (∃ a, x = .ok a ∧ good a) ∨ ∃ e, x = .error e ∧ bad e := by
  cases x with
  | ok a => exact .inl ⟨a, rfl, h⟩
  | error e => exact .inr ⟨e, rfl, h⟩

theorem Yields.bind {good : α → Prop} {good' : β → Prop} {bad : EvalError → Prop}
    {x : Except EvalError α} {f : α → Except EvalError β} (hx : Yields good bad x)
    (hf : ∀ a, good a → Yields good' bad (f a)) : Yields good' bad (x >>= f) := by
  cases x with
  | error e => exact hx
  | ok a => exact hf a hx

/-! ## One run as two -/

section
variable {w : World} {bad : EvalError → Prop}

/-- What a run yields is what it shares with itself. -/
theorem yields_iff_mirrors {x : Result} :
    Yields (Value.IsProper w) bad x ↔
      Mirrors (Value.IsWithin fun id => ∃ e ∈ w.entities, e.id = id) bad (fun _ => False) x x := by
  constructor
  · intro h
    cases x with
    | ok v => exact .value (Value.isProper_iff.mp h)
    | error e => exact .error h
  · rintro (hv | he | hfalse)
    · exact Value.isProper_iff.mpr hv
    · exact he
    · exact hfalse.elim

variable (hbad : ∀ e : EvalError, e.isOrdinary = true → bad e)

include hbad

/-- A function of the table that is applied to values reads none beyond them. -/
theorem yields_applyWith {evaluate : Node → Result} (b : Builtin) {arguments : List Value}
    (hdeferred : b.value.special = false →
      arguments.any Value.isDeferred = false ∨ ∀ name, bad (.deferredArgument name))
    (hforce : b.value.special = true → ∀ v ∈ arguments, ∀ what,
      Yields (Value.IsProper w) bad (forceWith evaluate what v)) :
    Yields (Value.IsProper w) bad (applyWith w evaluate arguments (.function b.value)) := by
  simp only [yields_iff_mirrors] at hforce ⊢
  exact mirrors_applyWith hbad b hdeferred hforce (.refl _ w)

theorem yields_evaluateWithin (depth : Nat) {n : Node}
    (hknown : n.isKnown = true ∨ bad .unknownNode) (hdepth : n.callDepth ≤ depth ∨ bad .tooDeep) :
    Yields (Value.IsProper w) bad (evaluateWithin w depth n) := by
  rw [yields_iff_mirrors]
  refine mirrors_evaluateWithin hbad (.refl _ w) (Nat.le_refl depth) (fun token _ => ?_) hknown
    (.inr ⟨rfl, hdepth⟩)
  exact mirrors_evaluateName hbad (fun _ id hid => ⟨World.mem_of_lookup hid, hid⟩) .inl

end

/-! ## Messages -/

theorem EvalError.exists_message_arity (name : String) (bound : ArityBound) (limit : Int)
    (count : Nat) :
    ∃ rest, (EvalError.arity name bound limit count).message = "function " ++ rest := by
  cases bound with
  | atLeast =>
    refine ⟨name ++ (" requires at least " ++ (toString limit ++
      (" arguments, got " ++ toString count))), ?_⟩
    show "function " ++ name ++ " requires at least " ++ toString limit ++ " arguments, got " ++
      toString count = _
    simp only [String.append_assoc]
  | atMost =>
    refine ⟨name ++ (" requires at most " ++ (toString limit ++
      (" arguments, got " ++ toString count))), ?_⟩
    show "function " ++ name ++ " requires at most " ++ toString limit ++ " arguments, got " ++
      toString count = _
    simp only [String.append_assoc]

/-- Neither an ordinary error nor the limit is called an internal error. -/
theorem EvalError.not_internal {e : EvalError} (h : e.isOrdinary = true ∨ e = .tooDeep) :
    ¬ "internal error".toList <+: e.message.toList := by
  have hstart : ∀ start rest : String, start.toList.head?.any (· ≠ 'i') = true →
      ¬ "internal error".toList <+: (start ++ rest).toList := by
    rintro start rest hstart ⟨more, heq⟩
    have hhead := congrArg List.head? heq
    cases hletters : start.toList with
    | nil => rw [hletters] at hstart; cases hstart
    | cons c cs =>
      rw [hletters] at hstart
      rw [String.toList_append, hletters] at hhead
      simp only [List.head?_cons, Option.any_some, decide_eq_true_eq] at hstart
      simp at hhead
      exact hstart hhead.symm
  rcases h with h | rfl
  · cases e with
    | notConcatenable => decide
    | notFunction => decide
    | conditionNotFlag => decide
    | undefinedName token => exact hstart _ token (by decide)
    | notEntity function =>
      show ¬ _ <+: ("function " ++ function.word ++ _).toList
      rw [String.append_assoc]
      exact hstart _ _ (by decide)
    | arity name bound limit count =>
      obtain ⟨rest, hmessage⟩ := EvalError.exists_message_arity name bound limit count
      rw [hmessage]
      exact hstart _ rest (by decide)
    | _ => cases h
  · decide

/-! ## Trees that are read -/

theorem Node.IsExpression.isKnown {n : Node} (h : n.IsExpression) : n.isKnown = true := by
  induction h with
  | name _ => rfl
  | quoted _ => rfl
  | call _ _ ih =>
    simp only [Node.isKnown, Bool.true_and, Node.areKnown_iff]
    exact ih

theorem Node.IsChain.isKnown {n last : Node} (h : n.IsChain last) : n.isKnown = true := by
  have hsegment : ∀ s : Node, s.IsSegment → s.isKnown = true := by
    intro s hs
    cases hs with
    | literal _ _ => rfl
    | expression he => exact he.isKnown
  induction h with
  | one hs => exact hsegment _ hs
  | more _ hs _ ih =>
    simp only [Node.isKnown, Bool.and_eq_true]
    exact ⟨ih, hsegment _ hs⟩

theorem isKnown_of_parse {text : String} {n : Node} (h : parse text = .ok n) :
    n.isKnown = true := by
  rcases (parseWithin_iff_derives.mp h).1.isCanonical with rfl | ⟨last, hchain⟩
  · rfl
  · exact hchain.isKnown

/-! ## Soundness -/

/-- A known tree, as every tree that is read is, has a proper value or an error that is not
internal.  A function of the table never reads an argument that it was not given, whatever it is
applied to. -/
theorem evaluate_sound (w : World) :
    (∀ n : Node, n.isKnown = true →
      (∃ v, evaluate w n = .ok v ∧ v.IsProper w) ∨
        ∃ e, evaluate w n = .error e ∧ e ≠ .missingArgument ∧
          ¬ "internal error".toList <+: e.message.toList) ∧
      (∀ (text : String) (n : Node), parse text = .ok n → n.isKnown = true) ∧
      ∀ (b : Builtin) (arguments : List Value),
        (∃ v, apply w (.function b.value) arguments = .ok v) ∨
          ∃ e, apply w (.function b.value) arguments = .error e ∧ e ≠ .missingArgument := by
  refine ⟨?_, fun _ _ => isKnown_of_parse, ?_⟩
  · intro n hn
    have hyields : Yields (Value.IsProper w) (fun e => e.isOrdinary = true ∨ e = .tooDeep)
        (evaluate w n) :=
      yields_evaluateWithin (fun _ he => .inl he) maxCallDepth (.inl hn) (.inr (.inr rfl))
    refine hyields.ok_or_error.imp_right ?_
    rintro ⟨e, heval, he⟩
    refine ⟨e, heval, ?_, EvalError.not_internal he⟩
    rintro rfl
    rcases he with he | he <;> cases he
  · intro b arguments
    -- Deferred arguments may be trees of any kind, so only one error is excluded here.
    have hbad : ∀ e : EvalError, e.isOrdinary = true → e ≠ .missingArgument := by
      rintro e he rfl
      cases he
    have hforce : ∀ v ∈ arguments, ∀ what,
        Yields (Value.IsProper w) (· ≠ .missingArgument) (forceWith (evaluate w) what v) := by
      intro v _ what
      cases v with
      | deferred n =>
        exact yields_evaluateWithin hbad maxCallDepth (.inr EvalError.noConfusion)
          (.inr EvalError.noConfusion)
      | _ => exact EvalError.noConfusion
    have hyields := yields_applyWith hbad b (fun _ => .inr fun _ => EvalError.noConfusion)
      fun _ => hforce
    exact hyields.ok_or_error.imp_left fun ⟨v, hv, _⟩ => ⟨v, hv⟩

/-- A call whose head computes which function is called, and a deferred argument for a function
that takes none. -/
theorem evaluate_sound_computed_head :
    let tree := Node.call
      (.call (.name "if")
        [.call (.name "closed") [.name "rusty.metal.door"], .name "locked", .name "closed"])
      [.name "rusty.metal.door"]
    tree.isKnown = true ∧
      (∃ v, evaluate Example.world tree = .ok v ∧ v.IsProper Example.world) ∧
      parse "Tür" = .ok (.literal "Tür") ∧ (Node.literal "Tür").isKnown = true ∧
      ∃ e, apply Example.world (.function Builtin.locked.value) [.deferred .unknown] = .error e ∧
        e ≠ .missingArgument := by
  intro tree
  obtain ⟨htrees, hread, happly⟩ := evaluate_sound Example.world
  have hvalue : evaluate Example.world tree = .ok (.flag false) := rfl
  have hparse : parse "Tür" = .ok (.literal "Tür") := by cbv
  have hrefused : apply Example.world (.function Builtin.locked.value) [.deferred .unknown] =
      .error (.deferredArgument "locked") := rfl
  refine ⟨rfl, (htrees tree rfl).resolve_right ?_, hparse, hread "Tür" _ hparse,
    (happly .locked [.deferred .unknown]).resolve_left ?_⟩
  · rintro ⟨e, he, -⟩
    rw [hvalue] at he
    cases he
  · rintro ⟨v, hv⟩
    rw [hrefused] at hv
    cases hv

end TextAdventure.Template
