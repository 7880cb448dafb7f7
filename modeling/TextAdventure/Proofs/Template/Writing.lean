import Mathlib.Tactic.TFAE
import TextAdventure.Template.Source
import TextAdventure.Proofs.Template.Canonical

/-!
# Written trees

The source of a canonical tree derives it (`Node.IsCanonical.derives`), since what is written
behind a segment never begins with a part of it.  So parsing gives the tree back.

There are trees that can be read and not written.  Writing takes more frames for a call than
reading does, so a canonical tree has a source if and only if its calls are nested no deeper
than `maxWrittenCalls`, and beyond that writing overflows (`Node.IsCanonical.overflows`).
-/

namespace TextAdventure.Template

/-! ## The source of an expression -/

/-- With a number of frames a tree has a source, marked by the place it is written at, that derives
it as an expression before every text that it does not go on in. -/
def Node.Readable (frames : Nat) (n : Node) : Prop :=
  ∃ source : String, (∀ place, n.sourceAt frames place = .ok (place.mark source)) ∧
    ∀ rest, n.EndsBefore rest → ExpressionText true (source.toList ++ rest) n rest

/-- The sources of arguments, each behind a space, end at a parenthesis. -/
theorem Node.readable_arguments {frames : Nat} {as : List Node} (has : ∀ a ∈ as, a.IsExpression)
    (h : ∀ a ∈ as, a.Readable frames) :
    ∃ s, Node.argumentsSource frames as = .ok s ∧ ∀ rest,
      Ends isNameChar (s.toList ++ ')' :: rest) ∧
        ArgumentsText true (s.toList ++ ')' :: rest) as rest := by
  induction as with
  | nil =>
    refine ⟨"", by simp [Node.argumentsSource], fun rest => ⟨?_, .close⟩⟩
    exact (ends_cons ..).mpr (by decide)
  | cons a as ih =>
    obtain ⟨ha, has⟩ := List.forall_mem_cons.mp has
    obtain ⟨⟨first, hfirst, htext⟩, hrest⟩ := List.forall_mem_cons.mp h
    obtain ⟨others, hothers, hargs⟩ := ih has hrest
    refine ⟨" " ++ first ++ others, ?_, ?_⟩
    · simp [Node.argumentsSource, hfirst, hothers, bind, Except.bind, pure, Except.pure,
        Position.mark]
    · intro rest
      obtain ⟨hends, harguments⟩ := hargs rest
      have hargument := ExpressionText.space (c := ' ') (by decide)
        (htext (others.toList ++ ')' :: rest) (ha.endsBefore hends))
      have htexts : (" " ++ first ++ others).toList ++ ')' :: rest =
          ' ' :: (first.toList ++ (others.toList ++ ')' :: rest)) := by simp
      rw [htexts]
      exact ⟨(ends_cons ..).mpr (by decide), .argument hargument harguments⟩

theorem Node.readable_quoted (frames : Nat) {text : String}
    (h : '"' ∉ text.toList ∨ '\'' ∉ text.toList) : (Node.quoted text).Readable frames := by
  have hquoted : ∀ (mark : Char) (rest : List Char), isQuote mark = true → mark ∉ text.toList →
      ExpressionText true (mark :: (text.toList ++ mark :: rest)) (.quoted text) rest := by
    intro mark rest hmark hinside
    have hexpression := @ExpressionText.quoted true mark text.toList rest hmark hinside
    rwa [String.ofList_toList] at hexpression
  by_cases hdouble : '"' ∈ text.toList
  · have hsingle : '\'' ∉ text.toList := h.resolve_left (fun hn => hn hdouble)
    refine ⟨"'" ++ text ++ "'", ?_, ?_⟩
    · intro place
      simp [Node.sourceAt, quotedSource, hdouble, hsingle, bind, Except.bind, pure, Except.pure]
    · intro rest _
      simpa using hquoted '\'' rest (by decide) hsingle
  · refine ⟨"\"" ++ text ++ "\"", ?_, ?_⟩
    · intro place
      simp [Node.sourceAt, quotedSource, hdouble, bind, Except.bind, pure, Except.pure]
    · intro rest _
      simpa using hquoted '"' rest (by decide) hdouble

/-- An expression can be written if there are frames for all calls inside one another. -/
theorem Node.IsExpression.readable {n : Node} (h : n.IsExpression) :
    ∀ {frames : Nat}, callFrames * n.callDepth ≤ frames → n.Readable frames := by
  induction h with
  | @name token hname =>
    intro frames _
    refine ⟨token, ?_, ?_⟩
    · intro place
      simp [Node.sourceAt]
    · intro rest hends
      exact .name (hname.identifierText hends)
  | quoted hquotable =>
    intro frames _
    exact Node.readable_quoted frames hquotable
  | @call token as hhead has ih =>
    intro frames hframes
    rw [Node.callDepth_call_name, Nat.mul_succ] at hframes
    have hroom : ¬ frames < callFrames := by omega
    have hreadable : ∀ a ∈ as, a.Readable (frames - callFrames) := by
      intro a ha
      have hdepth := Nat.mul_le_mul_left callFrames (Node.callDepth_le_deepest ha)
      exact ih a ha (by omega)
    obtain ⟨s, hs, harguments⟩ := Node.readable_arguments has hreadable
    refine ⟨"(" ++ token ++ s ++ ")", ?_, ?_⟩
    · intro place
      simp [Node.sourceAt, hroom, hs, bind, Except.bind, pure, Except.pure, Position.mark]
    · intro rest _
      obtain ⟨hends, htext⟩ := harguments rest
      have hcall := ExpressionText.call (.head (hhead.identifierText hends) htext)
      simpa using hcall

/-! ## No room for the source of an expression -/

/-- With a number of frames a tree cannot be written anywhere. -/
def Node.Overflows (frames : Nat) (n : Node) : Prop :=
  ∀ place, n.sourceAt frames place = .error .overflow

theorem Node.overflows_arguments {frames : Nat} {as : List Node} (has : ∀ a ∈ as, a.IsExpression)
    (h : ∀ a ∈ as, frames < callFrames * a.callDepth → a.Overflows frames)
    (hdeep : frames < callFrames * Node.deepest as) :
    Node.argumentsSource frames as = .error .overflow := by
  induction as with
  | nil => simp at hdeep
  | cons a as ih =>
    obtain ⟨ha, has⟩ := List.forall_mem_cons.mp has
    obtain ⟨hfirst, hrest⟩ := List.forall_mem_cons.mp h
    by_cases hfits : callFrames * a.callDepth ≤ frames
    · obtain ⟨source, hsource, -⟩ := ha.readable hfits
      have hothers : frames < callFrames * Node.deepest as := by
        rw [Node.deepest_cons, ← Nat.mul_max_mul_left] at hdeep
        omega
      simp [Node.argumentsSource, hsource, ih has hrest hothers, bind, Except.bind]
    · simp [Node.argumentsSource, hfirst (by omega) .expression, bind, Except.bind]

/-- An expression cannot be written if there are not so many frames. -/
theorem Node.IsExpression.overflows {n : Node} (h : n.IsExpression) :
    ∀ {frames : Nat}, frames < callFrames * n.callDepth → n.Overflows frames := by
  induction h with
  | name _ => intro frames hframes; simp at hframes
  | quoted _ => intro frames hframes; simp at hframes
  | @call token as _ has ih =>
    intro frames hframes place
    rw [Node.callDepth_call_name, Nat.mul_succ] at hframes
    rw [Node.sourceAt]
    split
    · rfl
    · have harguments : Node.argumentsSource (frames - callFrames) as = .error .overflow :=
        Node.overflows_arguments has (fun a ha => ih a ha) (by omega)
      simp [Node.sourceAt, harguments, bind, Except.bind]

/-! ## The source of a template -/

section
variable {frames : Nat}

theorem Node.IsSegment.readable {s : Node} (h : s.IsSegment)
    (hframes : callFrames * s.callDepth ≤ frames) :
    ∃ source, s.sourceAt frames .template = .ok source ∧
      (∀ rest, s.EndsBefore rest → SegmentText true (source.toList ++ rest) s rest) ∧
        ∀ last rest, Node.MayPrecede last s → last.EndsBefore (source.toList ++ rest) := by
  cases h with
  | @literal text hne hplain =>
    have hrun : text.toList ≠ [] := fun hnil => hne (String.toList_eq_nil_iff.mp hnil)
    obtain ⟨c, run, hcs⟩ := List.exists_cons_of_ne_nil hrun
    refine ⟨text, by simp [Node.sourceAt], ?_, ?_⟩
    · intro rest hends
      have hchars : ∀ d ∈ text.toList, isLiteral d = true := by
        intro d hd
        refine isLiteral_of_ne ?_
        rintro rfl
        exact hplain hd
      have hsegment := SegmentText.of_ends hrun hchars hends
      rwa [String.ofList_toList] at hsegment
    · intro last rest hprecede
      rw [hcs, List.cons_append]
      cases last with
      | literal _ => exact hprecede.elim
      | name _ =>
        rw [Node.MayPrecede, hcs] at hprecede
        exact (ends_cons ..).mpr ((ends_cons ..).mp hprecede)
      | _ => trivial
  | expression hexpression =>
    obtain ⟨source, hsource, htext⟩ := hexpression.readable hframes
    refine ⟨String.singleton sigil ++ source, hsource .template, ?_, ?_⟩
    · intro rest hends
      simpa using SegmentText.expression (htext rest hends)
    · intro last rest _
      simpa using last.endsBefore_sigil (source.toList ++ rest)

theorem Node.IsSegment.overflows {s : Node} (h : s.IsSegment)
    (hframes : frames < callFrames * s.callDepth) :
    s.sourceAt frames .template = .error .overflow := by
  cases h with
  | literal _ _ => simp at hframes
  | expression hexpression => exact hexpression.overflows hframes .template

theorem Node.IsChain.readable {n last : Node} (h : n.IsChain last)
    (hframes : callFrames * n.callDepth ≤ frames) :
    ∃ source, n.sourceAt frames .template = .ok source ∧
      ∀ rest, last.EndsBefore rest → ChainText true (source.toList ++ rest) n rest := by
  induction h with
  | one hsegment =>
    obtain ⟨source, hsource, htext, -⟩ := hsegment.readable hframes
    exact ⟨source, hsource, fun rest hends => .one (htext rest hends)⟩
  | @more n last s _ hsegment hadjacent ih =>
    rw [Node.callDepth_sequence, ← Nat.mul_max_mul_left] at hframes
    obtain ⟨before, hbefore, hchain⟩ := ih (by omega)
    obtain ⟨source, hsource, htext, hfollows⟩ :=
      hsegment.readable (Nat.le_trans (Nat.le_max_right ..) hframes)
    refine ⟨before ++ source, ?_, ?_⟩
    · simp [Node.sourceAt, Position.sequenceFrames, hbefore, hsource, bind, Except.bind, pure,
        Except.pure]
    · intro rest hends
      rw [String.toList_append, List.append_assoc]
      exact .more (hchain _ (hfollows last rest hadjacent)) (htext rest hends)

/-- A chain overflows at its first segment that does. -/
theorem Node.IsChain.overflows {n last : Node} (h : n.IsChain last)
    (hframes : frames < callFrames * n.callDepth) :
    n.sourceAt frames .template = .error .overflow := by
  induction h with
  | one hsegment => exact hsegment.overflows hframes
  | @more n last s hchain hsegment _ ih =>
    rw [Node.callDepth_sequence, ← Nat.mul_max_mul_left] at hframes
    by_cases hfits : callFrames * n.callDepth ≤ frames
    · obtain ⟨before, hbefore, -⟩ := hchain.readable hfits
      have hsource : s.sourceAt frames .template = .error .overflow := hsegment.overflows (by omega)
      simp [Node.sourceAt, Position.sequenceFrames, hbefore, hsource, bind, Except.bind]
    · have hbefore := ih (by omega)
      simp [Node.sourceAt, Position.sequenceFrames, hbefore, bind, Except.bind]

/-- With frames for all its calls the source of a canonical tree derives the tree. -/
theorem Node.IsCanonical.derives {n : Node} (h : n.IsCanonical)
    (hframes : callFrames * n.callDepth ≤ frames) :
    ∃ source, n.sourceAt frames .template = .ok source ∧ Derives source n := by
  rcases h with rfl | ⟨last, hchain⟩
  · exact ⟨"", by simp [Node.sourceAt], .empty⟩
  · obtain ⟨source, hsource, htext⟩ := hchain.readable hframes
    have hends : last.EndsBefore [] := by cases last <;> simp [Node.EndsBefore]
    refine ⟨source, hsource, .chain ?_⟩
    simpa using htext [] hends

/-- A canonical tree that is nested deeper cannot be written. -/
theorem Node.IsCanonical.overflows {n : Node} (h : n.IsCanonical)
    (hframes : frames < callFrames * n.callDepth) :
    n.sourceAt frames .template = .error .overflow := by
  rcases h with rfl | ⟨last, hchain⟩
  · simp [Node.callDepth] at hframes
  · exact hchain.overflows hframes

end

/-! ## The trees of the parser -/

theorem callFrames_mul_le_iff {k : Nat} : callFrames * k ≤ freeFrames ↔ k ≤ maxWrittenCalls := by
  rw [maxWrittenCalls, Nat.le_div_iff_mul_le (by decide), Nat.mul_comm]

/-- The parser gives the canonical trees that are not nested too deep for it.  Nested no deeper than
can be written, those are the trees that the parser gives back from their own source; a canonical
tree that is nested deeper cannot be written. -/
theorem parsed_tfae (n : Node) :
    ((∃ text, parse text = .ok n) ↔ n.IsCanonical ∧ n.callDepth ≤ maxOpenCalls) ∧
      ((∃ source, n.templateSource = .ok source ∧ parse source = .ok n) ↔
        n.IsCanonical ∧ n.callDepth ≤ maxWrittenCalls) ∧
      (n.callDepth ≤ maxWrittenCalls →
        [∃ text, parse text = .ok n,
          ∃ source, n.templateSource = .ok source ∧ parse source = .ok n,
          n.IsCanonical].TFAE) ∧
      (n.IsCanonical → maxWrittenCalls < n.callDepth → n.templateSource = .error .overflow) := by
  have hroom : maxWrittenCalls ≤ maxOpenCalls := by decide
  have hcanonical : ∀ {text}, parse text = .ok n → n.IsCanonical ∧ n.callDepth ≤ maxOpenCalls := by
    intro text hparse
    obtain ⟨hderives, hdepth⟩ := parseWithin_iff_derives.mp hparse
    exact ⟨hderives.isCanonical, hdepth⟩
  have hdeep : n.IsCanonical → maxWrittenCalls < n.callDepth →
      n.templateSource = .error .overflow := by
    intro hn hdepth
    refine hn.overflows ?_
    rw [← Nat.not_le, callFrames_mul_le_iff]
    omega
  have hwritten : n.IsCanonical → n.callDepth ≤ maxWrittenCalls →
      ∃ source, n.templateSource = .ok source ∧ parse source = .ok n := by
    intro hn hdepth
    obtain ⟨source, hsource, hderives⟩ := hn.derives (callFrames_mul_le_iff.mpr hdepth)
    exact ⟨source, hsource, parseWithin_iff_derives.mpr ⟨hderives, Nat.le_trans hdepth hroom⟩⟩
  refine ⟨⟨?_, ?_⟩, ⟨?_, ?_⟩, fun hdepth => ?_, hdeep⟩
  · rintro ⟨text, hparse⟩
    exact hcanonical hparse
  · rintro ⟨hn, hdepth⟩
    -- With more frames there would be a source, and parsing does not ask for them.
    obtain ⟨source, -, hderives⟩ := hn.derives (Nat.le_refl _)
    exact ⟨source, parseWithin_iff_derives.mpr ⟨hderives, hdepth⟩⟩
  · rintro ⟨source, hsource, hparse⟩
    obtain ⟨hn, -⟩ := hcanonical hparse
    refine ⟨hn, Nat.le_of_not_lt fun hdepth => ?_⟩
    rw [hdeep hn hdepth] at hsource
    cases hsource
  · rintro ⟨hn, hdepth⟩
    exact hwritten hn hdepth
  · tfae_have 1 → 3 := fun ⟨_, hparse⟩ => (hcanonical hparse).1
    tfae_have 3 → 2 := fun hn => hwritten hn hdepth
    tfae_have 2 → 1 := fun ⟨source, _, hparse⟩ => ⟨source, hparse⟩
    tfae_finish

/-- Calls of one argument inside one another. -/
def Node.nest : Nat → Node
  | 0 => .name "x"
  | k + 1 => .call (.name "if") [Node.nest k]

theorem Node.isExpression_nest (k : Nat) : (Node.nest k).IsExpression := by
  induction k with
  | zero => exact .name ⟨'x', [], rfl, by decide, by simp⟩
  | succ k ih =>
    have hname : IsName "if" :=
      ⟨'i', ['f'], rfl, by decide, List.forall_mem_singleton.mpr (by decide)⟩
    refine .call hname fun a ha => ?_
    rwa [List.mem_singleton.mp ha]

theorem Node.callDepth_nest (k : Nat) : (Node.nest k).callDepth = k := by
  induction k with
  | zero => simp [Node.nest]
  | succ k ih => simp [Node.nest, ih]

/-- Four hundred calls inside one another can be read and not written. -/
theorem exists_parsed_without_source :
    ∃ text n, parse text = .ok n ∧ n.templateSource = .error .overflow := by
  have hcanonical : (Node.nest 400).IsCanonical :=
    .inr ⟨_, .one (.expression (Node.isExpression_nest 400))⟩
  have hdepth := Node.callDepth_nest 400
  obtain ⟨source, -, hderives⟩ := hcanonical.derives (Nat.le_refl _)
  refine ⟨source, Node.nest 400, parseWithin_iff_derives.mpr ⟨hderives, ?_⟩,
    hcanonical.overflows ?_⟩
  · rw [hdepth]
    decide
  · rw [hdepth]
    decide

/-- A call with a quoted argument is read, written and read again. -/
theorem parsed_tfae_call :
    let n := Node.call (.name "if") [.quoted "\""]
    n.callDepth ≤ maxWrittenCalls ∧ n.IsCanonical ∧
      ∃ source, n.templateSource = .ok source ∧ parse source = .ok n := by
  intro n
  have hparse : parse "#(if '\"')" = .ok n := by cbv
  have hdepth : n.callDepth ≤ maxWrittenCalls := by decide
  obtain ⟨-, -, htfae, -⟩ := parsed_tfae n
  have hparsed : ∃ text, parse text = .ok n := ⟨_, hparse⟩
  exact ⟨hdepth, ((htfae hdepth).out 0 2).mp hparsed, ((htfae hdepth).out 0 1).mp hparsed⟩

end TextAdventure.Template
