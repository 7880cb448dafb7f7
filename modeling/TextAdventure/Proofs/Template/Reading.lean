import TextAdventure.Template.Expression

/-!
# Reading inside open calls

The machine reads an expression in the same way wherever it stands.  What differs
is what comes after it: outside of all calls the expression is the answer, and
inside a call it is one more argument.  `Reader.expecting outer` is the machine
where an expression is due inside the calls `outer`, and `resume` is what happens
once that expression is complete.  Both are the same two cases on `outer`.

The equations of the first sections say what the machine makes of the pieces of an
expression: white space, parentheses, names and quoted strings.  A name is read
up to the first character that cannot belong to it, so `Reader.read_name` asks
that the text goes on with no such character (`Ends`).

The last sections are about all texts.  What is read depends on the characters
used and on whether a name goes on behind them (`Reader.read_replace`), and every
state of the machine has a text that completes it (`Reader.completable`).
-/

namespace TextAdventure.Template

/-! ## Characters -/

theorem isSpace_iff (c : Char) :
    isSpace c = true ↔ c = ' ' ∨ c = '\t' ∨ c = '\r' ∨ c = '\n' := by
  simp [isSpace, or_assoc]

theorem isQuote_iff (c : Char) : isQuote c = true ↔ c = '\'' ∨ c = '"' := by
  simp [isQuote]

/-- A character that begins a name may stand in it. -/
theorem isNameChar_of_isNameStart {c : Char} (h : isNameStart c = true) : isNameChar c = true := by
  simp only [isNameStart, isNameChar, Char.isAlphanum, Bool.or_eq_true] at h ⊢
  rcases h with halpha | hunderscore
  · exact .inl (.inl (.inl halpha))
  · exact .inl (.inr hunderscore)

theorem isNameChar_of_isSpace {c : Char} (h : isSpace c = true) : isNameChar c = false := by
  rcases (isSpace_iff c).mp h with rfl | rfl | rfl | rfl <;> decide

theorem isNameChar_of_isQuote {c : Char} (h : isQuote c = true) : isNameChar c = false := by
  rcases (isQuote_iff c).mp h with rfl | rfl <;> decide

/-- A character that may stand in a name is no white space. -/
theorem isSpace_of_isNameChar {c : Char} (h : isNameChar c = true) : isSpace c = false := by
  cases hs : isSpace c with
  | false => rfl
  | true => rw [isNameChar_of_isSpace hs] at h; cases h

/-- A character that may stand in a name is no quotation mark. -/
theorem isQuote_of_isNameChar {c : Char} (h : isNameChar c = true) : isQuote c = false := by
  cases hq : isQuote c with
  | false => rfl
  | true => rw [isNameChar_of_isQuote hq] at h; cases h

theorem isSpace_of_isQuote {c : Char} (h : isQuote c = true) : isSpace c = false := by
  rcases (isQuote_iff c).mp h with rfl | rfl <;> decide

/-- No character for which `p` holds comes next. -/
def Ends (p : Char → Bool) (rest : List Char) : Prop := ∀ c ∈ rest.head?, p c = false

@[simp] theorem ends_nil (p : Char → Bool) : Ends p [] := by simp [Ends]

@[simp] theorem ends_cons (p : Char → Bool) (c : Char) (rest : List Char) :
    Ends p (c :: rest) ↔ p c = false := by simp [Ends]

/-! ## Where expressions are due -/

/-- The machine where an expression is due inside open calls. -/
def Reader.expecting : List OpenCall → Reader
  | [] => Reader.start
  | call :: outer => ⟨outer, .arguments call⟩

/-- Go on after an expression inside open calls: it is the whole answer outside of all calls, and
an argument of the innermost one else. -/
def resume (limit : Nat) (outer : List OpenCall) (n : Node) (rest : List Char) :
    Except Failure (Node × List Char) :=
  match outer with
  | [] => .ok (n, rest)
  | call :: outer => (Reader.expecting (call.push n :: outer)).read limit rest

@[simp] theorem resume_nil (limit : Nat) (n : Node) (rest : List Char) :
    resume limit [] n rest = .ok (n, rest) := rfl

@[simp] theorem resume_cons (limit : Nat) (call : OpenCall) (outer : List OpenCall) (n : Node)
    (rest : List Char) : resume limit (call :: outer) n rest =
      (Reader.expecting (call.push n :: outer)).read limit rest := rfl

theorem Reader.step_expecting_space (limit : Nat) (outer : List OpenCall) {c : Char}
    (h : isSpace c = true) :
    (Reader.expecting outer).step limit c = .more (Reader.expecting outer) := by
  cases outer <;> simp [Reader.expecting, Reader.start, Reader.step, stepArguments, h]

theorem Reader.step_expecting (limit : Nat) (outer : List OpenCall) {c : Char}
    (hs : isSpace c = false) (hc : c ≠ ')') :
    (Reader.expecting outer).step limit c = beginExpression limit outer c := by
  cases outer <;> simp [Reader.expecting, Reader.start, Reader.step, stepArguments, hs, hc]

/-- White space before an expression is passed over. -/
theorem Reader.read_expecting_space (limit : Nat) (outer : List OpenCall) {c : Char}
    (h : isSpace c = true) (cs : List Char) :
    (Reader.expecting outer).read limit (c :: cs) = (Reader.expecting outer).read limit cs :=
  Reader.read_of_more (Reader.step_expecting_space limit outer h)

/-- A parenthesis opens a call. -/
theorem Reader.read_expecting_call {limit : Nat} {outer : List OpenCall}
    (h : outer.length < limit) (cs : List Char) :
    (Reader.expecting outer).read limit ('(' :: cs) = (Reader.mk outer .head).read limit cs := by
  apply Reader.read_of_more
  rw [Reader.step_expecting limit outer (by decide) (by decide)]
  simp [beginExpression, h]

/-- A mark opens a quoted string. -/
theorem Reader.read_expecting_quote (limit : Nat) (outer : List OpenCall) {mark : Char}
    (h : isQuote mark = true) (cs : List Char) :
    (Reader.expecting outer).read limit (mark :: cs) =
      (Reader.mk outer (.quoted mark [])).read limit cs := by
  apply Reader.read_of_more
  have hopen : mark ≠ '(' ∧ mark ≠ ')' := by
    rcases (isQuote_iff mark).mp h with rfl | rfl <;> decide
  rw [Reader.step_expecting limit outer (isSpace_of_isQuote h) hopen.2]
  simp [beginExpression, hopen.1, h]

/-- A letter begins a name. -/
theorem Reader.read_expecting_name (limit : Nat) (outer : List OpenCall) {c : Char}
    (h : isNameStart c = true) (cs : List Char) :
    (Reader.expecting outer).read limit (c :: cs) =
      (Reader.mk outer (.name [c])).read limit cs := by
  apply Reader.read_of_more
  have hc := isNameChar_of_isNameStart h
  have hparen : c ≠ '(' ∧ c ≠ ')' := by
    constructor <;> rintro rfl <;> revert hc <;> decide
  rw [Reader.step_expecting limit outer (isSpace_of_isNameChar hc) hparen.2]
  simp [beginExpression, hparen.1, isQuote_of_isNameChar hc, h]

/-- Completing an expression resumes what is around it. -/
theorem Reader.read_of_complete {limit : Nat} {r : Reader} {c : Char} {outer : List OpenCall}
    {n : Node} (h : r.step limit c = complete outer n) (cs : List Char) :
    r.read limit (c :: cs) = resume limit outer n cs := by
  cases outer with
  | nil => exact Reader.read_of_done h
  | cons call outer => exact Reader.read_of_more h

/-- A parenthesis closes the innermost call. -/
theorem Reader.read_expecting_close (limit : Nat) (call : OpenCall) (outer : List OpenCall)
    (cs : List Char) : (Reader.expecting (call :: outer)).read limit (')' :: cs) =
      resume limit outer call.close cs :=
  Reader.read_of_complete (by simp [Reader.expecting, Reader.step, stepArguments, isSpace]) cs

/-! ## Heads of calls -/

theorem Reader.read_head_space (limit : Nat) (outer : List OpenCall) {c : Char}
    (h : isSpace c = true) (cs : List Char) :
    (Reader.mk outer .head).read limit (c :: cs) = (Reader.mk outer .head).read limit cs :=
  Reader.read_of_more (by simp [Reader.step, h])

theorem Reader.read_head_name (limit : Nat) (outer : List OpenCall) {c : Char}
    (h : isNameStart c = true) (cs : List Char) :
    (Reader.mk outer .head).read limit (c :: cs) =
      (Reader.mk outer (.headName [c])).read limit cs :=
  Reader.read_of_more (by
    simp [Reader.step, h, isSpace_of_isNameChar (isNameChar_of_isNameStart h)])

/-! ## Names and quoted strings -/

theorem spell_cons_append (c : Char) (more letters : List Char) :
    spell ((c :: more).reverse ++ letters) = spell (more.reverse ++ c :: letters) := by
  simp

/-- A head that has ended is followed by arguments. -/
theorem Reader.read_headName_nil (limit : Nat) (outer : List OpenCall) (letters : List Char)
    {rest : List Char} (h : Ends isNameChar rest) :
    (Reader.mk outer (.headName letters)).read limit rest =
      (Reader.expecting (⟨spell letters, []⟩ :: outer)).read limit rest := by
  cases rest with
  | nil => rfl
  | cons c rest =>
    have hc : isNameChar c = false := by simpa using h
    simp [Reader.read, Reader.expecting, Reader.step, hc]

/-- The head of a call is read up to the first character that cannot belong to it. -/
theorem Reader.read_headName (limit : Nat) (outer : List OpenCall) {more rest : List Char}
    (hm : ∀ d ∈ more, isNameChar d = true) (h : Ends isNameChar rest) (letters : List Char) :
    (Reader.mk outer (.headName letters)).read limit (more ++ rest) =
      (Reader.expecting (⟨spell (more.reverse ++ letters), []⟩ :: outer)).read limit rest := by
  induction more generalizing letters with
  | nil => exact Reader.read_headName_nil limit outer letters h
  | cons d more ih =>
    have hd : isNameChar d = true := hm d (List.mem_cons_self ..)
    rw [List.cons_append, spell_cons_append,
      ← ih (fun e he => hm e (List.mem_cons_of_mem d he))]
    exact Reader.read_of_more (by simp [Reader.step, hd])

/-- A name that has ended is a complete expression. -/
theorem Reader.read_name_nil (limit : Nat) (outer : List OpenCall) (letters : List Char)
    {rest : List Char} (h : Ends isNameChar rest) :
    (Reader.mk outer (.name letters)).read limit rest =
      resume limit outer (.name (spell letters)) rest := by
  cases rest with
  | nil => cases outer <;> rfl
  | cons c rest =>
    have hc : isNameChar c = false := by simpa using h
    cases outer <;> simp [Reader.read, Reader.expecting, Reader.step, hc]

/-- A name is read up to the first character that cannot belong to it. -/
theorem Reader.read_name (limit : Nat) (outer : List OpenCall) {more rest : List Char}
    (hm : ∀ d ∈ more, isNameChar d = true) (h : Ends isNameChar rest) (letters : List Char) :
    (Reader.mk outer (.name letters)).read limit (more ++ rest) =
      resume limit outer (.name (spell (more.reverse ++ letters))) rest := by
  induction more generalizing letters with
  | nil => exact Reader.read_name_nil limit outer letters h
  | cons d more ih =>
    have hd : isNameChar d = true := hm d (List.mem_cons_self ..)
    rw [List.cons_append, spell_cons_append,
      ← ih (fun e he => hm e (List.mem_cons_of_mem d he))]
    exact Reader.read_of_more (by simp [Reader.step, hd])

/-- A quoted string is read up to the mark that it began with. -/
theorem Reader.read_quoted (limit : Nat) (outer : List OpenCall) {mark : Char}
    {text : List Char} (h : mark ∉ text) (rest letters : List Char) :
    (Reader.mk outer (.quoted mark letters)).read limit (text ++ mark :: rest) =
      resume limit outer (.quoted (spell (text.reverse ++ letters))) rest := by
  induction text generalizing letters with
  | nil => exact Reader.read_of_complete (by simp [Reader.step]) rest
  | cons d text ih =>
    have hd : d ≠ mark := fun he => h (he ▸ List.mem_cons_self ..)
    rw [List.cons_append, spell_cons_append, ← ih (fun hm => h (List.mem_cons_of_mem d hm))]
    exact Reader.read_of_more (by simp [Reader.step, hd])

/-! ## Runs -/

/-- The state that the machine is in after some characters, unless the expression has ended or
failed by then. -/
def Reader.advance (limit : Nat) (r : Reader) : List Char → Option Reader
  | [] => some r
  | c :: cs =>
      match r.step limit c with
      | .more r => r.advance limit cs
      | _ => none

@[simp] theorem Reader.advance_nil (limit : Nat) (r : Reader) : r.advance limit [] = some r := rfl

theorem Reader.advance_cons_of_more {limit : Nat} {r r' : Reader} {c : Char} {cs : List Char}
    (h : r.step limit c = .more r') : r.advance limit (c :: cs) = r'.advance limit cs := by
  rw [Reader.advance, h]

/-- Reading goes on from the state reached. -/
theorem Reader.read_of_advance {limit : Nat} {r r' : Reader} {used : List Char}
    (h : r.advance limit used = some r') (rest : List Char) :
    r.read limit (used ++ rest) = r'.read limit rest := by
  induction used generalizing r with
  | nil =>
    cases h
    rfl
  | cons c used ih =>
    rw [Reader.advance] at h
    split at h
    · next next hs =>
      rw [List.cons_append, Reader.read_of_more hs]
      exact ih h
    · cases h

/-- A complete expression ends with a character, before one, or with the text. -/
theorem Reader.exists_advance_of_read {limit : Nat} {r : Reader} {cs rest : List Char} {n : Node}
    (h : r.read limit cs = .ok (n, rest)) :
    ∃ used last, r.advance limit used = some last ∧
      ((∃ c, cs = used ++ c :: rest ∧ last.step limit c = .done n) ∨
        (∃ c tail, cs = used ++ rest ∧ rest = c :: tail ∧ last.step limit c = .doneBefore n) ∨
        (cs = used ∧ rest = [] ∧ last.finish = .ok n)) := by
  induction cs generalizing r with
  | nil =>
    rw [Reader.read_nil] at h
    split at h
    · next m hm =>
      cases h
      exact ⟨[], r, rfl, .inr (.inr ⟨rfl, rfl, hm⟩)⟩
    · cases h
  | cons c cs ih =>
    cases hs : r.step limit c with
    | more next =>
      rw [Reader.read_of_more hs] at h
      obtain ⟨used, last, hrun, hlast⟩ := ih h
      refine ⟨c :: used, last, by rw [Reader.advance_cons_of_more hs, hrun], ?_⟩
      rcases hlast with ⟨d, rfl, hd⟩ | ⟨d, tail, rfl, ht, hd⟩ | ⟨rfl, ht, hd⟩
      · exact .inl ⟨d, rfl, hd⟩
      · exact .inr (.inl ⟨d, tail, rfl, ht, hd⟩)
      · exact .inr (.inr ⟨rfl, ht, hd⟩)
    | done m =>
      rw [Reader.read_of_done hs] at h
      cases h
      exact ⟨[], r, rfl, .inl ⟨c, rfl, hs⟩⟩
    | doneBefore m =>
      rw [Reader.read_of_doneBefore hs] at h
      cases h
      exact ⟨[], r, rfl, .inr (.inl ⟨c, cs, rfl, rfl, hs⟩)⟩
    | overflow => rw [Reader.read_of_overflow hs] at h; cases h
    | fault f => rw [Reader.read_of_fault hs] at h; cases h

/-- A failure is met at a character or at the end of the text. -/
theorem Reader.exists_advance_of_read_error {limit : Nat} {r : Reader} {cs : List Char}
    {e : Failure} (h : r.read limit cs = .error e) :
    ∃ used last, r.advance limit used = some last ∧ cs = used ++ e.rest ∧
      ((∃ c tail, e = .overflow (c :: tail) ∧ last.step limit c = .overflow) ∨
        (∃ f c tail, e = .malformed f (c :: tail) ∧ last.step limit c = .fault f) ∨
          ∃ f, e = .malformed f [] ∧ last.finish = .error f) := by
  induction cs generalizing r with
  | nil =>
    rw [Reader.read_nil] at h
    split at h
    · cases h
    · next f hf =>
      cases h
      exact ⟨[], r, rfl, rfl, .inr (.inr ⟨f, rfl, hf⟩)⟩
  | cons c cs ih =>
    cases hs : r.step limit c with
    | more next =>
      rw [Reader.read_of_more hs] at h
      obtain ⟨used, last, hrun, rfl, hlast⟩ := ih h
      exact ⟨c :: used, last, by rw [Reader.advance_cons_of_more hs, hrun], rfl, hlast⟩
    | done m => rw [Reader.read_of_done hs] at h; cases h
    | doneBefore m => rw [Reader.read_of_doneBefore hs] at h; cases h
    | overflow =>
      rw [Reader.read_of_overflow hs] at h
      cases h
      exact ⟨[], r, rfl, rfl, .inl ⟨c, cs, rfl, hs⟩⟩
    | fault f =>
      rw [Reader.read_of_fault hs] at h
      cases h
      exact ⟨[], r, rfl, rfl, .inr (.inl ⟨f, c, cs, rfl, hs⟩)⟩

/-! ## What one character can do -/

/-- The outcome is neither an expression that has ended before the character nor a fault about the
end of the text. -/
def Outcome.UsesCharacter : Outcome → Prop
  | .doneBefore _ => False
  | .fault (.endOfText _) => False
  | _ => True

theorem usesCharacter_complete (outer : List OpenCall) (n : Node) :
    (complete outer n).UsesCharacter := by
  cases outer <;> trivial

theorem usesCharacter_beginExpression (limit : Nat) (outer : List OpenCall) (c : Char) :
    (beginExpression limit outer c).UsesCharacter := by
  unfold beginExpression
  repeat' split
  all_goals trivial

theorem usesCharacter_stepArguments (limit : Nat) (outer : List OpenCall) (call : OpenCall)
    (c : Char) : (stepArguments limit outer call c).UsesCharacter := by
  unfold stepArguments
  repeat' split
  · trivial
  · exact usesCharacter_complete outer call.close
  · exact usesCharacter_beginExpression limit (call :: outer) c

/-- Only a name outside of all calls ends before the next character. -/
theorem Reader.step_usesCharacter (limit : Nat) (r : Reader) (c : Char) :
    (r.step limit c).UsesCharacter ∨
      ∃ letters, r = ⟨[], .name letters⟩ ∧ isNameChar c = false ∧
        r.step limit c = .doneBefore (.name (spell letters)) := by
  obtain ⟨outer, mode⟩ := r
  cases mode with
  | due =>
    left
    simp only [Reader.step]
    split
    · trivial
    · exact usesCharacter_beginExpression limit outer c
  | head =>
    left
    simp only [Reader.step]
    repeat' split
    all_goals trivial
  | headName letters =>
    left
    simp only [Reader.step]
    split
    · trivial
    · exact usesCharacter_stepArguments limit outer ⟨spell letters, []⟩ c
  | arguments call => exact .inl (usesCharacter_stepArguments limit outer call c)
  | quoted mark letters =>
    left
    simp only [Reader.step]
    split
    · exact usesCharacter_complete outer (.quoted (spell letters))
    · trivial
  | name letters =>
    simp only [Reader.step]
    split
    · exact .inl trivial
    · next hc =>
      cases outer with
      | nil => exact .inr ⟨letters, rfl, by simpa using hc, rfl⟩
      | cons call outer => exact .inl (usesCharacter_stepArguments limit outer _ c)

theorem Reader.step_eq_doneBefore {limit : Nat} {r : Reader} {c : Char} {n : Node}
    (h : r.step limit c = .doneBefore n) :
    ∃ letters, r = ⟨[], .name letters⟩ ∧ n = .name (spell letters) ∧ isNameChar c = false := by
  rcases r.step_usesCharacter limit c with huses | ⟨letters, hr, hc, hstep⟩
  · rw [h] at huses
    exact huses.elim
  · rw [h, Outcome.doneBefore.injEq] at hstep
    exact ⟨letters, hr, hstep, hc⟩

/-- No character is a fault about the end of the text. -/
theorem Reader.step_ne_endOfText (limit : Nat) (r : Reader) (c : Char) (inside : Construct) :
    r.step limit c ≠ .fault (.endOfText inside) := by
  intro h
  rcases r.step_usesCharacter limit c with huses | ⟨letters, -, -, hstep⟩
  · rw [h] at huses
    exact huses
  · rw [h] at hstep
    cases hstep

/-- Only a name outside of all calls ends with the text. -/
theorem Reader.finish_eq_ok {r : Reader} {n : Node} (h : r.finish = .ok n) :
    ∃ letters, r = ⟨[], .name letters⟩ ∧ n = .name (spell letters) := by
  obtain ⟨outer, mode⟩ := r
  cases mode with
  | name letters =>
    cases outer with
    | nil =>
      cases h
      exact ⟨letters, rfl, rfl⟩
    | cons call outer => cases h
  | _ => cases h

/-- The end of the text is a fault about the end only. -/
theorem Reader.finish_eq_error {r : Reader} {f : Fault} (h : r.finish = .error f) :
    ∃ inside, f = .endOfText inside := by
  obtain ⟨outer, mode⟩ := r
  cases mode with
  | name letters =>
    cases outer with
    | nil => cases h
    | cons call outer =>
      cases h
      exact ⟨_, rfl⟩
  | _ =>
    cases h
    exact ⟨_, rfl⟩

/-! ## What is read depends on little of what follows -/

/-- The text after an expression may be replaced, as long as a name does not go on in it.  It does
not if the text still begins with the same character. -/
theorem Reader.read_replace {limit : Nat} {r : Reader} {cs rest : List Char} {n : Node}
    (h : r.read limit cs = .ok (n, rest)) :
    ∃ used, cs = used ++ rest ∧ ∀ rest', rest'.head? = rest.head? ∨ Ends isNameChar rest' →
      r.read limit (used ++ rest') = .ok (n, rest') := by
  obtain ⟨used, last, hrun, ⟨c, rfl, hc⟩ | ⟨c, tail, rfl, rfl, hc⟩ | ⟨hcs, rfl, hend⟩⟩ :=
    Reader.exists_advance_of_read h
  · refine ⟨used ++ [c], by simp, ?_⟩
    intro rest' _
    rw [List.append_assoc, List.singleton_append, Reader.read_of_advance hrun,
      Reader.read_of_done hc]
  · obtain ⟨letters, rfl, rfl, hname⟩ := Reader.step_eq_doneBefore hc
    refine ⟨used, rfl, ?_⟩
    intro rest' hrest'
    have hends : Ends isNameChar rest' := by
      rcases hrest' with hhead | hends
      · rw [Ends, hhead]
        simpa using hname
      · exact hends
    rw [Reader.read_of_advance hrun, Reader.read_name_nil limit [] letters hends, resume_nil]
  · obtain ⟨letters, rfl, rfl⟩ := Reader.finish_eq_ok hend
    refine ⟨used, by simp [hcs], ?_⟩
    intro rest' hrest'
    have hends : Ends isNameChar rest' := by
      rcases hrest' with hhead | hends
      · rw [Ends, hhead]
        simp
      · exact hends
    rw [Reader.read_of_advance hrun, Reader.read_name_nil limit [] letters hends, resume_nil]

/-! ## Every state can be completed -/

theorem ends_replicate (k : Nat) : Ends isNameChar (List.replicate k ')') := by
  cases k with
  | zero => simp
  | succ k => simp [List.replicate_succ]; decide

/-- Closing parentheses complete the open calls around an expression. -/
theorem resume_replicate (limit : Nat) (outer : List OpenCall) (n : Node) :
    ∃ m, resume limit outer n (List.replicate outer.length ')') = .ok (m, []) := by
  induction outer generalizing n with
  | nil => exact ⟨n, rfl⟩
  | cons call outer ih =>
    obtain ⟨m, hm⟩ := ih (call.push n).close
    refine ⟨m, ?_⟩
    rw [List.length_cons, List.replicate_succ, resume_cons, Reader.read_expecting_close, hm]

/-- Closing parentheses complete a call and the open calls around it. -/
theorem Reader.expecting_replicate (limit : Nat) (call : OpenCall) (outer : List OpenCall) :
    ∃ m, (Reader.expecting (call :: outer)).read limit (List.replicate (outer.length + 1) ')') =
      .ok (m, []) := by
  obtain ⟨m, hm⟩ := resume_replicate limit outer call.close
  exact ⟨m, by rw [List.replicate_succ, Reader.read_expecting_close, hm]⟩

/-- From every state some text completes the expression: the missing name or mark, and then the
closing parentheses. -/
theorem Reader.completable (limit : Nat) (r : Reader) :
    ∃ more n, r.read limit more = .ok (n, []) := by
  obtain ⟨outer, mode⟩ := r
  cases mode with
  | due =>
    obtain ⟨m, hm⟩ := resume_replicate limit outer (.name (spell ['a']))
    refine ⟨'a' :: List.replicate outer.length ')', m, ?_⟩
    have hstep : (Reader.mk outer .due).step limit 'a' = .more ⟨outer, .name ['a']⟩ := rfl
    rw [Reader.read_of_more hstep, Reader.read_name_nil limit outer ['a'] (ends_replicate _), hm]
  | head =>
    obtain ⟨m, hm⟩ := Reader.expecting_replicate limit ⟨spell ['a'], []⟩ outer
    refine ⟨'a' :: List.replicate (outer.length + 1) ')', m, ?_⟩
    rw [Reader.read_head_name limit outer (by decide),
      Reader.read_headName_nil limit outer ['a'] (ends_replicate _), hm]
  | headName letters =>
    obtain ⟨m, hm⟩ := Reader.expecting_replicate limit ⟨spell letters, []⟩ outer
    refine ⟨List.replicate (outer.length + 1) ')', m, ?_⟩
    rw [Reader.read_headName_nil limit outer letters (ends_replicate _), hm]
  | arguments call =>
    obtain ⟨m, hm⟩ := Reader.expecting_replicate limit call outer
    exact ⟨List.replicate (outer.length + 1) ')', m, hm⟩
  | quoted mark letters =>
    obtain ⟨m, hm⟩ := resume_replicate limit outer (.quoted (spell letters))
    refine ⟨mark :: List.replicate outer.length ')', m, ?_⟩
    have hclose : (Reader.mk outer (.quoted mark letters)).step limit mark =
        complete outer (.quoted (spell letters)) := by simp [Reader.step]
    rw [Reader.read_of_complete hclose, hm]
  | name letters =>
    obtain ⟨m, hm⟩ := resume_replicate limit outer (.name (spell letters))
    refine ⟨List.replicate outer.length ')', m, ?_⟩
    rw [Reader.read_name_nil limit outer letters (ends_replicate _), hm]

end TextAdventure.Template
