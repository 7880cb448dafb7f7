import TextAdventure.Proofs.Template.Grammar
import TextAdventure.Proofs.Template.Nesting

/-!
# Whatever is derived is read

An expression that is derived with longest match is read wherever it is due, if the
limit leaves room for its nesting (`ExpressionText.read`).  The statement is about
any open calls and any text behind the expression, so the induction is on the
derivation alone.

Reading is a function, so a text derives at most one tree (`TemplateText.unique`).
-/

namespace TextAdventure.Template

/-! ## Calls that are complete but for some arguments -/

/-- The call when more arguments and its closing parenthesis have been read. -/
def OpenCall.closeWith (call : OpenCall) (as : List Node) : Node :=
  .call (.name call.head) (call.arguments.reverse ++ as)

@[simp] theorem OpenCall.closeWith_nil (call : OpenCall) : call.closeWith [] = call.close := by
  simp [OpenCall.closeWith, OpenCall.close]

@[simp] theorem OpenCall.closeWith_push (call : OpenCall) (a : Node) (as : List Node) :
    (call.push a).closeWith as = call.closeWith (a :: as) := by
  simp [OpenCall.closeWith, OpenCall.push]

/-! ## Names -/

theorem IdentifierText.read {cs rest : List Char} {token : String}
    (h : IdentifierText true cs token rest) (limit : Nat) (outer : List OpenCall) :
    (Reader.expecting outer).read limit cs = resume limit outer (.name token) rest := by
  obtain ⟨hstart, hchars, hends⟩ := h
  rw [Reader.read_expecting_name limit outer hstart,
    Reader.read_name limit outer hchars (hends rfl)]
  simp [spell]

theorem IdentifierText.read_head {cs rest : List Char} {token : String}
    (h : IdentifierText true cs token rest) (limit : Nat) (outer : List OpenCall) :
    (Reader.mk outer .head).read limit cs =
      (Reader.expecting (⟨token, []⟩ :: outer)).read limit rest := by
  obtain ⟨hstart, hchars, hends⟩ := h
  rw [Reader.read_head_name limit outer hstart,
    Reader.read_headName limit outer hchars (hends rfl)]
  simp [spell]

/-! ## Expressions -/

theorem CallText.callDepth_pos {longest : Bool} {cs rest : List Char} {n : Node} :
    CallText longest cs n rest → 0 < n.callDepth
  | .space _ h => h.callDepth_pos
  | .head _ _ => by simp

mutual

/-- A derived expression is read inside any open calls. -/
theorem ExpressionText.read {limit : Nat} {cs rest : List Char} {n : Node} :
    ExpressionText true cs n rest → ∀ outer, outer.length + n.callDepth ≤ limit →
      (Reader.expecting outer).read limit cs = resume limit outer n rest
  | .space hblank h, outer, hdepth => by
    rw [Reader.read_expecting_space limit outer hblank]
    exact h.read outer hdepth
  | .call h, outer, hdepth => by
    have hpos := h.callDepth_pos
    rw [Reader.read_expecting_call (by omega)]
    exact h.read outer hdepth
  | @ExpressionText.quoted _ mark text rest hquote hinside, outer, _ => by
    rw [Reader.read_expecting_quote limit outer hquote,
      Reader.read_quoted limit outer hinside]
    simp [spell]
  | .name h, outer, _ => h.read limit outer

theorem CallText.read {limit : Nat} {cs rest : List Char} {n : Node} :
    CallText true cs n rest → ∀ outer, outer.length + n.callDepth ≤ limit →
      (Reader.mk outer .head).read limit cs = resume limit outer n rest
  | .space hblank h, outer, hdepth => by
    rw [Reader.read_head_space limit outer hblank]
    exact h.read outer hdepth
  | @CallText.head _ cs mid rest token as hname h, outer, hdepth => by
    rw [Node.callDepth_call_name] at hdepth
    rw [hname.read_head]
    exact h.read outer ⟨token, []⟩ (by omega)

theorem ArgumentsText.read {limit : Nat} {cs rest : List Char} {as : List Node} :
    ArgumentsText true cs as rest → ∀ outer call, outer.length + 1 + Node.deepest as ≤ limit →
      (Reader.expecting (call :: outer)).read limit cs =
        resume limit outer (call.closeWith as) rest
  | .space hblank h, outer, call, hdepth => by
    rw [Reader.read_expecting_space limit (call :: outer) hblank]
    exact h.read outer call hdepth
  | .close, outer, call, _ => by
    rw [Reader.read_expecting_close, OpenCall.closeWith_nil]
  | @ArgumentsText.argument _ cs mid rest a as hexpression h, outer, call, hdepth => by
    rw [Node.deepest_cons] at hdepth
    have hroom : (call :: outer).length + a.callDepth ≤ limit := by
      rw [List.length_cons]
      omega
    have hfirst := hexpression.read (call :: outer) hroom
    rw [hfirst, resume_cons, h.read outer (call.push a) (by omega), OpenCall.closeWith_push]

end

/-! ## Templates -/

theorem SegmentsText.read {limit : Nat} {cs : List Char} {segments : List Node}
    (h : SegmentsText true cs segments) (hdepth : Node.deepest segments ≤ limit) :
    readSegments limit cs = .ok segments := by
  induction h with
  | nil => exact readSegments_nil limit
  | @cons cs mid s segments hsegment _ ih =>
    rw [Node.deepest_cons] at hdepth
    have hrest := ih (by omega)
    cases hsegment with
    | @literal run rest hne hchars hends =>
      rw [readSegments_run hne hchars (hends rfl), hrest]
      rfl
    | expression hexpression =>
      have hroom : ([] : List OpenCall).length + s.callDepth ≤ limit := by
        rw [List.length_nil]
        omega
      rw [readSegments_of_read (hexpression.read [] hroom), hrest]
      rfl

/-- A derived template is read, if the limit is not below its nesting. -/
theorem TemplateText.read {limit : Nat} {cs : List Char} {n : Node}
    (h : TemplateText true cs n) (hdepth : n.callDepth ≤ limit) :
    ∃ segments, readSegments limit cs = .ok segments ∧ n = Node.ofSegments segments := by
  obtain ⟨segments, hsegments, rfl⟩ := templateText_iff.mp h
  rw [Node.callDepth_ofSegments] at hdepth
  exact ⟨segments, hsegments.read hdepth, rfl⟩

/-- With longest match a text derives at most one tree. -/
theorem TemplateText.unique {cs : List Char} {n m : Node} (hn : TemplateText true cs n)
    (hm : TemplateText true cs m) : n = m := by
  -- One limit for both trees, so that both come out of the same reading.
  obtain ⟨segments, hread, hsegments⟩ := hn.read (Nat.le_max_left n.callDepth m.callDepth)
  obtain ⟨others, hother, hothers⟩ := hm.read (Nat.le_max_right n.callDepth m.callDepth)
  rw [hread, Except.ok.injEq] at hother
  rw [hsegments, hothers, hother]

end TextAdventure.Template
