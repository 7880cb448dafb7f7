import TextAdventure.Proofs.Template.Completeness

/-!
# Whatever is read is derived

The machine keeps open calls and closes them later, so the text behind what it is
reading has to finish all of them before there is a derivation.  `Closes` says what
the open calls demand of the text behind a complete expression: each call takes
more arguments up to its parenthesis, and then it is an argument of the call
outside of it.  `Reader.Remains` says the same of a state of the machine, where
something is half read.

A step turns what remains behind a character into what remains before it
(`Reader.remains_of_step`), and so by induction on the text every expression that
is read has a derivation.  With completeness this makes the parser and the grammar
one (`parseWithin_iff_derives`).
-/

namespace TextAdventure.Template

/-! ## What remains to be derived -/

/-- What open calls demand of the text behind a complete expression. -/
def Closes : List OpenCall → Node → List Char → Node → List Char → Prop
  | [], m, cs, n, rest => m = n ∧ cs = rest
  | call :: outer, m, cs, n, rest =>
      ∃ as mid, ArgumentsText true cs as mid ∧ Closes outer (call.closeWith (m :: as)) mid n rest

/-- What a call and the open calls outside of it demand where an argument is due. -/
def Awaits (outer : List OpenCall) (call : OpenCall) (cs : List Char) (n : Node)
    (rest : List Char) : Prop :=
  ∃ as mid, ArgumentsText true cs as mid ∧ Closes outer (call.closeWith as) mid n rest

theorem closes_cons {call : OpenCall} {outer : List OpenCall} {m n : Node} {cs rest : List Char} :
    Closes (call :: outer) m cs n rest ↔ Awaits outer (call.push m) cs n rest := by
  simp only [Closes, Awaits, OpenCall.closeWith_push]

/-- What a state of the machine demands of the text ahead. -/
def Reader.Remains (r : Reader) (cs : List Char) (n : Node) (rest : List Char) : Prop :=
  match r.mode with
  | .due => ∃ m mid, ExpressionText true cs m mid ∧ Closes r.outer m mid n rest
  | .head => ∃ m mid, CallText true cs m mid ∧ Closes r.outer m mid n rest
  | .headName letters =>
      ∃ more mid, cs = more ++ mid ∧ (∀ d ∈ more, isNameChar d = true) ∧ Ends isNameChar mid ∧
        Awaits r.outer ⟨spell (more.reverse ++ letters), []⟩ mid n rest
  | .arguments call => Awaits r.outer call cs n rest
  | .quoted mark letters =>
      ∃ text mid, cs = text ++ mark :: mid ∧ mark ∉ text ∧
        Closes r.outer (.quoted (spell (text.reverse ++ letters))) mid n rest
  | .name letters =>
      ∃ more mid, cs = more ++ mid ∧ (∀ d ∈ more, isNameChar d = true) ∧ Ends isNameChar mid ∧
        Closes r.outer (.name (spell (more.reverse ++ letters))) mid n rest

/-- What the outcome of a character `c` demands of the text `cs` behind it. -/
def Outcome.Remains (c : Char) (cs : List Char) (n : Node) (rest : List Char) : Outcome → Prop
  | .more r => r.Remains cs n rest
  | .done m => m = n ∧ cs = rest
  | .doneBefore m => m = n ∧ c :: cs = rest
  | .overflow | .fault _ => False

/-! ## One character -/

section
variable {limit : Nat} {c : Char} {cs rest : List Char} {n : Node}

theorem closes_of_complete {outer : List OpenCall} {m : Node}
    (h : (complete outer m).Remains c cs n rest) : Closes outer m cs n rest := by
  cases outer with
  | nil => exact h
  | cons call outer => exact closes_cons.mpr h

theorem expression_of_beginExpression {outer : List OpenCall}
    (h : (beginExpression limit outer c).Remains c cs n rest) :
    ∃ m mid, ExpressionText true (c :: cs) m mid ∧ Closes outer m mid n rest := by
  unfold beginExpression at h
  repeat' split at h
  · next hopen _ =>
    obtain ⟨m, mid, hcall, hcloses⟩ := h
    subst hopen
    exact ⟨m, mid, .call hcall, hcloses⟩
  · cases h
  · next hquote =>
    obtain ⟨text, mid, rfl, hinside, hcloses⟩ := h
    refine ⟨_, mid, .quoted hquote hinside, ?_⟩
    simpa [spell] using hcloses
  · next hstart =>
    obtain ⟨more, mid, rfl, hchars, hends, hcloses⟩ := h
    refine ⟨_, mid, .name (.of_ends hstart hchars hends), ?_⟩
    simpa [spell] using hcloses
  · cases h

theorem awaits_of_stepArguments {outer : List OpenCall} {call : OpenCall}
    (h : (stepArguments limit outer call c).Remains c cs n rest) :
    Awaits outer call (c :: cs) n rest := by
  unfold stepArguments at h
  repeat' split at h
  · next hblank =>
    obtain ⟨as, mid, has, hcloses⟩ := h
    exact ⟨as, mid, .space hblank has, hcloses⟩
  · next hclose =>
    subst hclose
    refine ⟨[], cs, .close, ?_⟩
    rw [OpenCall.closeWith_nil]
    exact closes_of_complete h
  · obtain ⟨a, mid, hexpression, hcloses⟩ := expression_of_beginExpression h
    obtain ⟨as, mid', has, hcloses'⟩ := hcloses
    exact ⟨a :: as, mid', .argument hexpression has, hcloses'⟩

/-- What remains behind a character becomes what remains before it. -/
theorem Reader.remains_of_step {r : Reader} (h : (r.step limit c).Remains c cs n rest) :
    r.Remains (c :: cs) n rest := by
  obtain ⟨outer, mode⟩ := r
  cases mode with
  | due =>
    simp only [Reader.step] at h
    split at h
    · next hblank =>
      obtain ⟨m, mid, hexpression, hcloses⟩ := h
      exact ⟨m, mid, .space hblank hexpression, hcloses⟩
    · exact expression_of_beginExpression h
  | head =>
    simp only [Reader.step] at h
    repeat' split at h
    · next hblank =>
      obtain ⟨m, mid, hcall, hcloses⟩ := h
      exact ⟨m, mid, .space hblank hcall, hcloses⟩
    · next hstart =>
      obtain ⟨more, mid, rfl, hchars, hends, as, mid', has, hcloses⟩ := h
      have hname := IdentifierText.of_ends hstart hchars hends
      refine ⟨_, mid', .head hname has, ?_⟩
      simpa [OpenCall.closeWith, spell] using hcloses
    · cases h
  | headName letters =>
    simp only [Reader.step] at h
    split at h
    · next hc =>
      obtain ⟨more, mid, rfl, hchars, hends, hawaits⟩ := h
      refine ⟨c :: more, mid, rfl, ?_, hends, ?_⟩
      · exact List.forall_mem_cons.mpr ⟨hc, hchars⟩
      · rwa [spell_cons_append]
    · next hc =>
      have hends : Ends isNameChar (c :: cs) := by simpa using hc
      exact ⟨[], c :: cs, rfl, by simp, hends, awaits_of_stepArguments h⟩
  | arguments call => exact awaits_of_stepArguments h
  | quoted mark letters =>
    simp only [Reader.step] at h
    split at h
    · next hc =>
      subst hc
      exact ⟨[], cs, rfl, by simp, closes_of_complete h⟩
    · next hc =>
      obtain ⟨text, mid, rfl, hinside, hcloses⟩ := h
      refine ⟨c :: text, mid, rfl, ?_, ?_⟩
      · exact List.not_mem_cons_of_ne_of_not_mem (Ne.symm hc) hinside
      · rwa [spell_cons_append]
  | name letters =>
    simp only [Reader.step] at h
    split at h
    · next hc =>
      obtain ⟨more, mid, rfl, hchars, hends, hcloses⟩ := h
      refine ⟨c :: more, mid, rfl, ?_, hends, ?_⟩
      · exact List.forall_mem_cons.mpr ⟨hc, hchars⟩
      · rwa [spell_cons_append]
    · next hc =>
      have hends : Ends isNameChar (c :: cs) := by simpa using hc
      refine ⟨[], c :: cs, rfl, by simp, hends, ?_⟩
      cases outer with
      | nil => exact h
      | cons call outer => exact closes_cons.mpr (awaits_of_stepArguments h)

end

/-! ## Expressions and templates -/

theorem Reader.remains_of_read {limit : Nat} {r : Reader} {cs rest : List Char} {n : Node}
    (h : r.read limit cs = .ok (n, rest)) : r.Remains cs n rest := by
  induction cs generalizing r with
  | nil =>
    rw [Reader.read_nil] at h
    split at h
    · next m hm =>
      cases h
      obtain ⟨letters, rfl, rfl⟩ := Reader.finish_eq_ok hm
      exact ⟨[], [], rfl, by simp, by simp, rfl, rfl⟩
    · cases h
  | cons c cs ih =>
    refine @Reader.remains_of_step limit c cs rest n r ?_
    cases hs : r.step limit c with
    | more next =>
      rw [Reader.read_of_more hs] at h
      exact ih h
    | done m =>
      rw [Reader.read_of_done hs] at h
      cases h
      exact ⟨rfl, rfl⟩
    | doneBefore m =>
      rw [Reader.read_of_doneBefore hs] at h
      cases h
      exact ⟨rfl, rfl⟩
    | overflow =>
      rw [Reader.read_of_overflow hs] at h
      cases h
    | fault f =>
      rw [Reader.read_of_fault hs] at h
      cases h

/-- An expression that is read is derived. -/
theorem ExpressionText.of_read {limit : Nat} {cs rest : List Char} {n : Node}
    (h : Reader.start.read limit cs = .ok (n, rest)) : ExpressionText true cs n rest := by
  obtain ⟨m, mid, hexpression, rfl, rfl⟩ := Reader.remains_of_read h
  exact hexpression

theorem SegmentsText.of_readSegments {limit : Nat} {cs : List Char} {segments : List Node}
    (h : readSegments limit cs = .ok segments) : SegmentsText true cs segments := by
  fun_induction readSegments limit cs generalizing segments with
  | case1 =>
    cases h
    exact .nil
  | case2 cs e he => cases h
  | case3 cs n rest hread ih =>
    obtain ⟨tail, htail, rfl⟩ := exceptMap_eq_ok_iff.mp h
    exact .cons (.expression (.of_read hread)) (ih htail)
  | case4 c cs hc ih =>
    obtain ⟨tail, htail, rfl⟩ := exceptMap_eq_ok_iff.mp h
    have hsegment := SegmentText.of_ends (List.cons_ne_nil _ _) (forall_isLiteral_takeWhile hc cs)
      (ends_dropWhile isLiteral cs)
    rw [List.cons_append, List.takeWhile_append_dropWhile] at hsegment
    exact .cons hsegment (ih htail)

/-- The parser reads what the grammar derives within the limit. -/
theorem parseWithin_iff_derives {limit : Nat} {text : String} {n : Node} :
    parseWithin limit text = .ok n ↔ Derives text n ∧ n.callDepth ≤ limit := by
  constructor
  · intro h
    refine ⟨?_, callDepth_le_of_parseWithin h⟩
    obtain ⟨segments, hread, rfl⟩ := parseWithin_eq_ok_iff.mp h
    exact templateText_iff.mpr ⟨segments, .of_readSegments hread, rfl⟩
  · rintro ⟨hderives, hdepth⟩
    exact parseWithin_eq_ok_iff.mpr (hderives.read hdepth)

/-- The parser accepts the grammar and builds the derived tree, which is unique.  It rejects the
texts that derive no tree within its limit.  Longest match costs no text. -/
theorem parse_iff_derives (text : String) :
    (∀ n, parse text = .ok n ↔ Derives text n ∧ n.callDepth ≤ maxOpenCalls) ∧
      ((∃ e, parse text = .error e) ↔ ∀ n, Derives text n → maxOpenCalls < n.callDepth) ∧
      (∀ n m, Derives text n → Derives text m → n = m) ∧
      ((∃ n, DerivesLoosely text n) ↔ ∃ n, Derives text n) := by
  have hparse (n : Node) : parse text = .ok n ↔ Derives text n ∧ n.callDepth ≤ maxOpenCalls :=
    parseWithin_iff_derives
  refine ⟨hparse, ⟨?_, ?_⟩, fun n m => TemplateText.unique,
    exists_templateText_iff _⟩
  · rintro ⟨e, he⟩ n hn
    apply Nat.lt_of_not_le
    intro hdepth
    have hok := (hparse n).mpr ⟨hn, hdepth⟩
    rw [he] at hok
    cases hok
  · intro h
    cases hresult : parse text with
    | error e => exact ⟨e, rfl⟩
    | ok n =>
      obtain ⟨hn, hdepth⟩ := (hparse n).mp hresult
      have hdeep := h n hn
      omega

end TextAdventure.Template
