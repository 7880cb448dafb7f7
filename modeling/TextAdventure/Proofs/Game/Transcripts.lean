import TextAdventure.Game.Transcript
import TextAdventure.Proofs.Game.Sessions
import TextAdventure.Proofs.Text.Lines

/-!
# What stands in a transcript

A transcript is made of the lines of an input and of the answers that a session gives to
them.  While nobody asks to quit, each line adds a prompt and its answer (`Session.play_append`).
At the first line that asks to quit the transcript ends with the answer to it, whatever
comes behind, and if there is none it ends with one more prompt on a line of its own
(`transcript_eq_exchanges`).
-/

namespace TextAdventure

/-! ## Prompts and answers -/

/-- A prompt and the answer after it, for each answer. -/
def exchanges (prompt : String) (answers : List (List String)) : String :=
  String.join (answers.map fun answer => prompt ++ unlines answer)

@[simp] theorem exchanges_nil (prompt : String) : exchanges prompt [] = "" := rfl

@[simp] theorem exchanges_cons (prompt : String) (answer : List String)
    (answers : List (List String)) : exchanges prompt (answer :: answers) =
      prompt ++ unlines answer ++ exchanges prompt answers := by
  simp [exchanges]

theorem exchanges_append (prompt : String) (answers more : List (List String)) :
    exchanges prompt (answers ++ more) = exchanges prompt answers ++ exchanges prompt more := by
  simp [exchanges]

section
variable {s : Session} {read : SentenceReader} {line : String} {answer : List String}
  (hanswer : (s.handleLine read line).1 = .ok answer)

include hanswer

/-- A line adds a prompt and its answer, and what follows only if the session is not done. -/
theorem Session.play_cons (prompt : String) (rest : List String) :
    s.play read prompt (line :: rest) =
      if (s.handleLine read line).2.done then .ok (prompt ++ unlines answer)
      else
        ((s.handleLine read line).2.play read prompt rest).map (prompt ++ unlines answer ++ ·) := by
  rw [Session.play, hanswer]
  simp only [bind, Except.bind, pure, Except.pure]
  cases (s.handleLine read line).2.play read prompt rest <;> rfl

theorem Session.play_of_asksToQuit (hquit : AsksToQuit line) (prompt : String)
    (rest : List String) : s.play read prompt (line :: rest) = .ok (prompt ++ unlines answer) := by
  obtain ⟨-, -, hdone⟩ := s.handleLine_spec read line
  rw [Session.play_cons hanswer, if_pos (hdone.mpr (.inr hquit))]

theorem Session.play_of_not_asksToQuit (hgoing : s.done = false) (hstay : ¬ AsksToQuit line)
    (prompt : String) (rest : List String) : (s.handleLine read line).2.done = false ∧
      s.play read prompt (line :: rest) =
        ((s.handleLine read line).2.play read prompt rest).map (prompt ++ unlines answer ++ ·) := by
  obtain ⟨-, -, hdone⟩ := s.handleLine_spec read line
  have hgoes : ¬ (s.handleLine read line).2.done = true := by
    rw [hdone, hgoing]
    simpa using hstay
  exact ⟨by simpa using hgoes, by rw [Session.play_cons hanswer, if_neg hgoes]⟩

end

/-- While nobody asks to quit, the transcript has all prompts and answers, and what follows is that
of the session as it is then. -/
theorem Session.play_append {s : Session} {read : SentenceReader} (hgoing : s.done = false)
    {before : List String} (hstay : ∀ line ∈ before, ¬ AsksToQuit line)
    {answers : List (List String)} (hanswers : (s.run read before).1 = answers.map .ok)
    (prompt : String) (rest : List String) :
    s.play read prompt (before ++ rest) =
      ((s.run read before).2.play read prompt rest).map (exchanges prompt answers ++ ·) := by
  -- The answers go with the lines, and each line leaves another session to the rest.
  induction before generalizing s answers with
  | nil =>
    obtain rfl := List.map_eq_nil_iff.mp hanswers.symm
    show s.play read prompt rest = (s.play read prompt rest).map _
    cases s.play read prompt rest with
    | error e => rfl
    | ok text => simp [Except.map]
  | cons line before ih =>
    obtain ⟨hline, hbefore⟩ := List.forall_mem_cons.mp hstay
    obtain ⟨answer, later, rfl, hanswer, hlater⟩ := List.map_eq_cons_iff.mp hanswers.symm
    obtain ⟨hnext, hplay⟩ :=
      Session.play_of_not_asksToQuit hanswer.symm hgoing hline prompt (before ++ rest)
    rw [List.cons_append, hplay, ih hnext hbefore hlater.symm]
    show _ = (((s.handleLine read line).2.run read before).2.play read prompt rest).map _
    cases ((s.handleLine read line).2.run read before).2.play read prompt rest with
    | error e => rfl
    | ok text => simp [Except.map, String.append_assoc]

theorem Session.run_append (s : Session) (read : SentenceReader) (lines more : List String) :
    (s.run read (lines ++ more)).1 =
      (s.run read lines).1 ++ ((s.run read lines).2.run read more).1 := by
  induction lines generalizing s with
  | nil => rfl
  | cons line lines ih =>
    have hrest := ih (s.handleLine read line).2
    rw [List.cons_append, Session.run, Session.run]
    exact congrArg _ hrest

/-! ## Transcripts -/

/-- Every line has an answer, so a session that goes through lines has a list of them. -/
theorem Player.exists_answers {p : Player} (hwidth : 0 < p.width)
    (hplace : ∃ e ∈ p.world.entities, e.id = p.location) {read : SentenceReader}
    (hread : FollowsGrammar commandGrammar read) (lines : List String) :
    ∃ answers : List (List String), ((Session.start p).run read lines).1 = answers.map .ok := by
  choose answer hanswer using Player.exists_answer hwidth hplace hread
  refine ⟨lines.map fun line => answer (Request.ofLine line), ?_⟩
  rw [((Session.start p).run_spec read lines).1, List.map_map]
  exact List.map_congr_left fun line _ => hanswer (Request.ofLine line)

theorem transcript_of_linesOf {input : String} {lines : List String} (h : LinesOf input lines)
    (p : Player) (read : SentenceReader) (prompt : String) : transcript p read prompt input =
      ((Session.start p).play read prompt lines).map (unlines greeting ++ ·) := by
  rw [transcript, h.inputLines_eq]
  cases (Session.start p).play read prompt lines <;> rfl

section
variable {p : Player} {read : SentenceReader} {prompt input : String} {before : List String}
  (hstay : ∀ line ∈ before, ¬ AsksToQuit line)

include hstay

theorem transcript_of_quit {line : String} {behind : List String} {answers : List (List String)}
    (hinput : LinesOf input (before ++ line :: behind)) (hquit : AsksToQuit line)
    (hanswers : ((Session.start p).run read (before ++ [line])).1 = answers.map .ok) :
    transcript p read prompt input = .ok (unlines greeting ++ exchanges prompt answers) := by
  rw [Session.run_append] at hanswers
  obtain ⟨earlier, later, rfl, hbefore, hlast⟩ := List.map_eq_append_iff.mp hanswers.symm
  obtain ⟨answer, none, rfl, hanswer, hnone⟩ := List.map_eq_cons_iff.mp hlast
  obtain rfl := List.map_eq_nil_iff.mp hnone
  rw [transcript_of_linesOf hinput, Session.play_append rfl hstay hbefore.symm,
    Session.play_of_asksToQuit hanswer.symm hquit, exchanges_append]
  simp [Except.map]

theorem transcript_of_end {answers : List (List String)} (hinput : LinesOf input before)
    (hanswers : ((Session.start p).run read before).1 = answers.map .ok) :
    transcript p read prompt input =
      .ok (unlines greeting ++ exchanges prompt answers ++ (prompt ++ "\n")) := by
  rw [transcript_of_linesOf hinput, ← List.append_nil before,
    Session.play_append rfl hstay hanswers]
  simp [Session.play, Except.map, String.append_assoc]

end

end TextAdventure
