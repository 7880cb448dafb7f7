import TextAdventure.Proofs.Template.Limit
import TextAdventure.Proofs.Template.Openings
import TextAdventure.Proofs.Template.Rendering
import TextAdventure.World.Example

/-!
# What is nested too deeply

The limits on reading and on evaluation are numbers that no template is written for.  All that
a template can rely on is that they lie within bounds.  So what is said here holds for all limits
within the bounds, and a failure is known by its message.

Reading says that a text is nested too deeply if and only if a beginning of it leaves more
calls open than the limit (`parseWithin_tooDeep_iff`), and evaluation does not say so of a tree
that is nested within the limit.  The number of segments and of arguments, and the length of
the text, are no part of this.
-/

namespace TextAdventure.Template

/-! ## Messages -/

/-- A text with a first character of its own is another text. -/
theorem append_ne_of_head? {start other : String}
    (h : start.toList.head?.any (other.toList.head? ≠ some ·) = true) (rest : String) :
    start ++ rest ≠ other := by
  rintro rfl
  cases hletters : start.toList with
  | nil => rw [hletters] at h; cases h
  | cons c cs => simp [String.toList_append, hletters] at h

/-- Reading has one fault that is called nesting. -/
theorem Fault.message_tooDeep_iff {f : Fault} :
    f.message = "expression nested too deeply" ↔ f = .tooDeep := by
  constructor
  · intro h
    cases f with
    | tooDeep => rfl
    | endOfText inside => cases inside <;> exact absurd h (by decide)
    | unexpected c => exact absurd h (append_ne_of_head? (by decide) _)
    | nameExpected => exact absurd h (by decide)
  · rintro rfl
    rfl

/-- What is said about a value that is no text, given how it is shown. -/
def notTextMessage : Except SourceError String → String
  | .ok shown => "invalid value: " ++ shown
  | .error e => e.message

theorem EvalError.message_notText (value : Value) :
    (EvalError.notText value).message = notTextMessage value.format := rfl

/-- Evaluation has one error that is called nesting. -/
theorem EvalError.message_ne_tooDeep {e : EvalError} (h : e ≠ .tooDeep) :
    e.message ≠ "expression nested too deeply" := by
  cases e with
  | notConcatenable => decide
  | undefinedName token => exact append_ne_of_head? (by decide) token
  | notFunction => decide
  | arity name bound limit count =>
    obtain ⟨rest, hmessage⟩ := EvalError.exists_message_arity name bound limit count
    rw [hmessage]
    exact append_ne_of_head? (by decide) rest
  | deferredArgument name => exact append_ne_of_head? (by decide) name
  | alreadyEvaluated what =>
    show "internal error, " ++ what ++ " already evaluated" ≠ _
    rw [String.append_assoc]
    exact append_ne_of_head? (by decide) _
  | conditionNotFlag => decide
  | notEntity function => cases function <;> decide
  | missingArgument => decide
  | unknownNode => decide
  | tooDeep => exact absurd rfl h
  | notText value =>
    rw [EvalError.message_notText]
    cases value.format with
    | ok shown => exact append_ne_of_head? (by decide) shown
    | error e =>
      cases e with
      | unquotable text => exact append_ne_of_head? (by decide) _
      | unknownNode => decide
      | overflow => decide

/-! ## Reading -/

/-- A text is nested too deeply to be read if and only if a beginning of it leaves more calls open
than the limit. -/
theorem parseWithin_tooDeep_iff {limit : Nat} {text : String} :
    (∃ e, parseWithin limit text = .error e ∧ e.message = "expression nested too deeply") ↔
      ∃ p k, p <+: text.toList ∧ TemplateStart p k ∧ limit < k := by
  constructor
  · rintro ⟨e, he, hmessage⟩
    obtain ⟨failure, hfailure, rfl⟩ := parseWithin_eq_error_iff.mp he
    exact exists_start_of_tooDeep hfailure (Fault.message_tooDeep_iff.mp hmessage)
  · intro hstart
    obtain ⟨rest, hdeep⟩ := readSegments_overflow_iff.mpr hstart
    exact ⟨_, parseWithin_eq_error_iff.mpr ⟨_, hdeep, rfl⟩, rfl⟩

/-! ## Rendering -/

/-- The text of a template in a world, with limits for reading and for evaluation. -/
def renderWithin (limit depth : Nat) (w : World) (text : String) : Except RenderError String :=
  match parseWithin limit text with
  | .error e => .error (.unreadable e)
  | .ok n =>
      match evaluateWithin w depth n >>= Value.content with
      | .error e => .error (.unevaluable e)
      | .ok rendered => .ok rendered

theorem render_eq_within (w : World) (text : String) :
    render w text = renderWithin maxOpenCalls maxCallDepth w text := rfl

/-- A tree that is nested within the limit has no text for other reasons than its nesting. -/
theorem evaluateWithin_content_ne_tooDeep {w : World} {depth : Nat} {n : Node}
    (h : n.callDepth ≤ depth) : (evaluateWithin w depth n >>= Value.content) ≠ .error .tooDeep := by
  intro hdeep
  cases hvalue : evaluateWithin w depth n with
  | error e =>
    rw [hvalue] at hdeep
    obtain rfl : e = .tooDeep := Except.error.inj hdeep
    exact evaluateWithin_ne_tooDeep w h hvalue
  | ok v =>
    rw [hvalue] at hdeep
    cases v <;> cases hdeep

theorem renderWithin_of_parse {limit : Nat} {text : String} {n : Node}
    (h : parseWithin limit text = .ok n) (depth : Nat) (w : World) :
    renderWithin limit depth w text =
      (evaluateWithin w depth n >>= Value.content).mapError .unevaluable := by
  simp only [renderWithin, h]
  cases evaluateWithin w depth n >>= Value.content <;> rfl

/-- A template that is nested within both limits has no text for other reasons than its nesting. -/
theorem renderWithin_message_ne {limit depth : Nat} {w : World} {text : String} {n : Node}
    {e : RenderError} (hn : Derives text n) (hlimit : n.callDepth ≤ limit)
    (hdepth : n.callDepth ≤ depth) (h : renderWithin limit depth w text = .error e) :
    e.message ≠ "expression nested too deeply" := by
  rw [renderWithin_of_parse (parseWithin_iff_derives.mpr ⟨hn, hlimit⟩)] at h
  cases hcontent : evaluateWithin w depth n >>= Value.content with
  | ok rendered =>
    rw [hcontent] at h
    cases h
  | error e' =>
    rw [hcontent] at h
    cases h
    refine EvalError.message_ne_tooDeep ?_
    rintro rfl
    exact evaluateWithin_content_ne_tooDeep hdepth hcontent

/-! ## Bounds on the limits -/

/-- With limits within the bounds, only nesting makes a template too deep.  A text of which no
beginning leaves more than 400 calls open is not too deep to be read, and one with a beginning that
leaves 2000 open is.  A template that is nested at most 110 deep is not too deep to be rendered in
any world.  The beginnings meant are the texts that can be completed to a template, and the limits
of parsing and rendering are within the bounds. -/
theorem tooDeep_of_nesting_only {limit depth : Nat} (hleast : 400 ≤ limit) (hmost : limit < 2000)
    (hdepth : 110 ≤ depth) :
    (∀ text : String, (∀ p k, p <+: text.toList → TemplateStart p k → k ≤ 400) →
      ∀ e, parseWithin limit text = .error e → e.message ≠ "expression nested too deeply") ∧
      (∀ (text : String) p k, p <+: text.toList → TemplateStart p k → 2000 ≤ k →
        ∃ e, parseWithin limit text = .error e ∧ e.message = "expression nested too deeply") ∧
      (∀ (w : World) (text : String) (n : Node), Derives text n → n.callDepth ≤ 110 →
        ∀ e, renderWithin limit depth w text = .error e →
          e.message ≠ "expression nested too deeply") ∧
      (∀ p, (∃ k, TemplateStart p k) ↔ ∃ more n, TemplateText true (p ++ more) n) ∧
      (400 ≤ maxOpenCalls ∧ maxOpenCalls < 2000 ∧
        ∀ text, parse text = parseWithin maxOpenCalls text) ∧
      110 ≤ maxCallDepth ∧
        ∀ w text, render w text = renderWithin maxOpenCalls maxCallDepth w text := by
  refine ⟨?_, ?_, ?_, fun p => exists_templateStart_iff, ⟨by decide, by decide, fun _ => rfl⟩,
    by decide, render_eq_within⟩
  · intro text hopen e he hmessage
    obtain ⟨p, k, hp, hstart, hlt⟩ := parseWithin_tooDeep_iff.mp ⟨e, he, hmessage⟩
    have hle := hopen p k hp hstart
    omega
  · intro text p k hp hstart hk
    exact parseWithin_tooDeep_iff.mpr ⟨p, k, hp, hstart, by omega⟩
  · intro w text n hn hnested e he
    exact renderWithin_message_ne hn (by omega) (by omega) he

/-- A text with a fault of another kind, a text with 2000 open calls, and a template that is no
text. -/
theorem tooDeep_of_nesting_only_door :
    400 ≤ maxOpenCalls ∧ maxOpenCalls < 2000 ∧ 110 ≤ maxCallDepth ∧
      (ParseError.mk (.unexpected ',') 6).message ≠ "expression nested too deeply" ∧
      (∃ e, parse (String.ofList (sigil :: (List.replicate 2000 ['(', 'f', ' ']).flatten)) =
        .error e ∧ e.message = "expression nested too deeply") ∧
      ∃ e, render Example.world "#(closed rusty.metal.door)" = .error e ∧
        e.message ≠ "expression nested too deeply" := by
  have hleast : 400 ≤ maxOpenCalls := by decide
  have hmost : maxOpenCalls < 2000 := by decide
  have hdepth : 110 ≤ maxCallDepth := by decide
  obtain ⟨hshallow, hdeep, hrender, -, -, -⟩ := tooDeep_of_nesting_only hleast hmost hdepth
  refine ⟨hleast, hmost, hdepth, ?_, ?_, ?_⟩
  · have hcomma : parseWithin maxOpenCalls "ab#(f ,)" = .error ⟨.unexpected ',', 6⟩ := by cbv
    refine hshallow "ab#(f ,)" ?_ _ hcomma
    intro p k hp hstart
    have hle := hstart.le_length
    have hlength := hp.length_le
    rw [String.length_toList] at hlength
    have hcount : "ab#(f ,)".length = 8 := by decide
    omega
  · have hstart := TemplateStart.expression (ExpressionStart.nested 2000)
    refine hdeep _ _ 2000 ⟨[], ?_⟩ hstart (Nat.le_refl 2000)
    rw [List.append_nil, String.toList_ofList]
  · have hparse : parse "#(closed rusty.metal.door)" =
        .ok (.call (.name "closed") [.name "rusty.metal.door"]) := by cbv
    have hderives := (parseWithin_iff_derives.mp hparse).1
    have hvalue : render Example.world "#(closed rusty.metal.door)" =
        .error (.unevaluable (.notText (.flag true))) := by
      rw [render_of_parse hparse]
      rfl
    exact ⟨_, hvalue, hrender Example.world _ _ hderives (by decide) _ hvalue⟩

end TextAdventure.Template
