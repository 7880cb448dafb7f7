import TextAdventure.Template.Rendering

/-!
# Outcomes of rendering

A text is rendered by reading it and rendering its tree, so it has a text if both succeed
(`render_eq_ok_iff`), and an error of the one or of the other (`render_eq_error_iff`).
-/

namespace TextAdventure.Template

variable {w : World} {text : String}

theorem render_of_parse_error {e : ParseError} (h : parse text = .error e) :
    render w text = .error (.unreadable e) := by
  rw [render, h]

theorem render_of_parse {n : Node} (h : parse text = .ok n) :
    render w text = (renderNode w n).mapError .unevaluable := by
  simp only [render, h]
  cases renderNode w n <;> rfl

theorem render_eq_ok_iff {rendered : String} :
    render w text = .ok rendered ↔ ∃ n, parse text = .ok n ∧ renderNode w n = .ok rendered := by
  unfold render
  cases parse text with
  | error e => simp
  | ok n => cases hnode : renderNode w n <;> simp [hnode]

theorem render_eq_error_iff {e : RenderError} :
    render w text = .error e ↔
      (∃ f, parse text = .error f ∧ e = .unreadable f) ∨
        ∃ n f, parse text = .ok n ∧ renderNode w n = .error f ∧ e = .unevaluable f := by
  unfold render
  cases parse text with
  | error f => simp [eq_comm]
  | ok n => cases hnode : renderNode w n <;> simp [hnode, eq_comm]

end TextAdventure.Template
