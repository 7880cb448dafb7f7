import TextAdventure.Game.Session
import TextAdventure.Proofs.Command.Meaning
import TextAdventure.Proofs.Template.Rendering
import TextAdventure.Proofs.Template.Safety
import TextAdventure.Proofs.World.Entities

/-!
# Sessions go on

Nothing that a player types ends a session but a line that asks to quit, and no line
has an effect on the answers to later ones.  Behind this are four facts.

A player who is at an entity of the world, and whose lines have a possible width, gets
an answer to every request (`Player.exists_answer`): what a name resolves to is there to
be described, and a description that cannot be rendered is answered with its error.
Such an error can be told (`isTellable_of_render`), since evaluation never fails in a
way that is no fault of the template.  A command has an answer too, whatever its words
are, because no tree that follows the grammar has a fault (`exists_commandLines`).  And
a line changes nothing about a session but that it may be done
(`Session.handleLine_spec`), from which the same follows for every run
(`Session.run_spec`).
-/

namespace TextAdventure

/-! ## Errors of descriptions -/

namespace Template

/-- The error can be told.  It is not that a function read an argument that it was not given, and a
value that it is about can be shown. -/
def EvalError.IsTellable : EvalError → Prop
  | .missingArgument => False
  | .notText value => ∃ shown, value.format = .ok shown
  | _ => True

theorem EvalError.IsTellable.of_isOrdinary {e : EvalError} (h : e.isOrdinary = true) :
    e.IsTellable := by
  cases e with
  | missingArgument => cases h
  | notText value => cases h
  | _ => trivial

theorem Value.IsProper.exists_format {w : World} {v : Value} (h : v.IsProper w) :
    ∃ shown, v.format = .ok shown := by
  cases h <;> exact ⟨_, rfl⟩

/-- Errors of evaluation that rendering ends with can be told. -/
theorem isTellable_of_render {w : World} {text : String} {e : EvalError}
    (h : render w text = .error (.unevaluable e)) : e.IsTellable := by
  rcases render_eq_error_iff.mp h with ⟨f, -, hf⟩ | ⟨n, f, hparse, hnode, hf⟩
  · cases hf
  · cases hf
    have hvalue : Yields (Value.IsProper w) EvalError.IsTellable (evaluate w n) :=
      yields_evaluateWithin (fun _ => .of_isOrdinary) maxCallDepth (.inl (isKnown_of_parse hparse))
        (.inr trivial)
    have hyields : Yields (fun _ => True) EvalError.IsTellable (renderNode w n) := by
      refine hvalue.bind fun v hv => ?_
      cases v with
      | text content => trivial
      | _ => exact hv.exists_format
    rw [hnode] at hyields
    exact hyields

end Template

/-! ## Answers -/

/-- Every command has an answer. -/
theorem exists_commandLines {read : SentenceReader} (hread : FollowsGrammar commandGrammar read)
    (text : String) : ∃ lines, commandLines read text = .ok lines := by
  obtain ⟨outcome, -, hparse⟩ := Command.exists_means hread text
  rw [commandLines, hparse]
  cases outcome <;> exact ⟨_, rfl⟩

section
variable {p : Player} (hwidth : 0 < p.width)

include hwidth

theorem Player.exists_read (template : String) : ∃ lines, p.read template = .ok lines := by
  unfold Player.read
  cases Template.render p.world template with
  | error e => exact ⟨_, rfl⟩
  | ok text =>
    simp only [Text.wrap, if_neg (Int.not_le.mpr hwidth)]
    exact ⟨_, rfl⟩

theorem Player.exists_viewOf {id : EntityId} (hid : ∃ e ∈ p.world.entities, e.id = id) :
    ∃ lines, p.viewOf id = .ok lines := by
  obtain ⟨e, he, rfl⟩ := hid
  obtain ⟨short, hshort⟩ := Player.exists_read hwidth e.shortDescription
  obtain ⟨long, hlong⟩ := Player.exists_read hwidth e.longDescription
  refine ⟨short ++ long, ?_⟩
  simp only [Player.viewOf, World.entity?_of_mem he, Player.view, hshort, hlong]
  rfl

/-- Every request has an answer. -/
theorem Player.exists_answer (hplace : ∃ e ∈ p.world.entities, e.id = p.location)
    {read : SentenceReader} (hread : FollowsGrammar commandGrammar read) (request : Request) :
    ∃ lines, p.answer read request = .ok lines := by
  cases request with
  | look =>
    obtain ⟨lines, hlines⟩ := Player.exists_viewOf hwidth hplace
    exact ⟨lines, by rw [Player.answer, Player.look, hlines]; rfl⟩
  | describe dotted =>
    simp only [Player.answer, Player.examine]
    cases hlookup : p.world.lookupDotted dotted with
    | none => exact ⟨_, rfl⟩
    | some id =>
      obtain ⟨lines, hlines⟩ := Player.exists_viewOf hwidth (World.mem_of_lookup hlookup)
      exact ⟨lines, by simp only [hlines]; rfl⟩
  | command text => exact exists_commandLines hread text
  | _ => exact ⟨_, rfl⟩

end

/-! ## Lines -/

/-- The line is one word, and that asks to quit. -/
def AsksToQuit (line : String) : Prop :=
  ∃ word, Text.words line = [word] ∧ (Text.lower word = "quit" ∨ Text.lower word = "q")

theorem Request.ofLine_eq_quit_iff {line : String} :
    Request.ofLine line = .quit ↔ AsksToQuit line := by
  unfold Request.ofLine AsksToQuit
  cases Text.words line with
  | nil => simp
  | cons head rest =>
    by_cases hquit : (Text.lower head = "quit" ∨ Text.lower head = "q") ∧ rest = []
    · simp [hquit]
    · have hother : ¬ ∃ word, head :: rest = [word] ∧
          (Text.lower word = "quit" ∨ Text.lower word = "q") := by
        rintro ⟨word, hline, hword⟩
        cases hline
        exact hquit ⟨hword, rfl⟩
      simp only [hother, iff_false, if_neg hquit]
      split_ifs <;> simp

/-- A line is answered as in a fresh session of the same player.  It leaves the player as it is, and
the session is done if it was or if the line asks to quit. -/
theorem Session.handleLine_spec (s : Session) (read : SentenceReader) (line : String) :
    (s.handleLine read line).1 = ((Session.start s.player).handleLine read line).1 ∧
      (s.handleLine read line).2.player = s.player ∧
      ((s.handleLine read line).2.done = true ↔ s.done = true ∨ AsksToQuit line) := by
  refine ⟨rfl, rfl, ?_⟩
  simp only [Session.handleLine, Bool.or_eq_true, decide_eq_true_eq, Request.ofLine_eq_quit_iff]

/-! ## Runs -/

/-- The answers to lines, and the session after them. -/
def Session.run (s : Session) (read : SentenceReader) :
    List String → List (Except SessionError (List String)) × Session
  | [] => ([], s)
  | line :: rest =>
      let (answer, next) := s.handleLine read line
      let (answers, last) := next.run read rest
      (answer :: answers, last)

theorem Session.run_spec (s : Session) (read : SentenceReader) (lines : List String) :
    (s.run read lines).1 =
        lines.map (fun line => ((Session.start s.player).handleLine read line).1) ∧
      (s.run read lines).2.player = s.player ∧
      ((s.run read lines).2.done = true ↔ s.done = true ∨ ∃ line ∈ lines, AsksToQuit line) := by
  induction lines generalizing s with
  | nil => simp [Session.run]
  | cons line rest ih =>
    obtain ⟨hanswer, hplayer, hdone⟩ := s.handleLine_spec read line
    obtain ⟨hanswers, hlast, hend⟩ := ih (s.handleLine read line).2
    rw [hplayer] at hanswers hlast
    refine ⟨?_, hlast, ?_⟩
    · rw [Session.run, List.map_cons, ← hanswer, ← hanswers]
    · rw [Session.run, hend, hdone, List.exists_mem_cons_iff, or_assoc]

end TextAdventure
