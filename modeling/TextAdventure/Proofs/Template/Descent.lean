import TextAdventure.Proofs.Template.Completeness

/-!
# Reading by descent

Expressions are read by a machine with a stack, but they can also be read by recursion:
an expression that begins with a parenthesis is a call, a call reads its head and then its
arguments, and each argument is an expression.  The relations of this module are that
recursion.  They hold between a text and the outcome of reading it, which is a failure or
what was read with the text that is left, and `room` is how many more calls may be opened.

The rules say what happens on every text, malformed ones included, and each rule goes on
with a text that some rule holds of.  So the recursion ends: every text has an outcome
(`exists_readsArguments`).  What makes the induction on the length of the text go through
is that something is used up whenever something is read (`Advances`), although an argument
is read from the very place where the call looks for its end.

The outcome is that of the machine (`readsExpression_iff`, `readsSegments_iff`).
-/

namespace TextAdventure.Template

/-! ## Outcomes -/

/-- What is left is an end of the text, and something was used of it unless reading failed. -/
def Advances {α : Type} (cs : List Char) : Except Failure (α × List Char) → Prop
  | .ok (_, rest) => rest <:+ cs ∧ rest.length < cs.length
  | .error e => e.rest <:+ cs

theorem Advances.of_suffix {α : Type} {cs cs' : List Char} {o : Except Failure (α × List Char)}
    (h : Advances cs o) (hsuffix : cs <:+ cs') : Advances cs' o := by
  cases o with
  | error e => exact List.IsSuffix.trans h hsuffix
  | ok p => exact ⟨h.1.trans hsuffix, Nat.lt_of_lt_of_le h.2 hsuffix.length_le⟩

theorem Advances.cons {α : Type} {cs : List Char} {o : Except Failure (α × List Char)}
    (h : Advances cs o) (c : Char) : Advances (c :: cs) o :=
  h.of_suffix (List.suffix_cons c cs)

/-! ## Expressions -/

mutual

/-- An expression. -/
inductive ReadsExpression : Nat → List Char → Except Failure (Node × List Char) → Prop where
  | space {room : Nat} {c : Char} {cs : List Char} {o : Except Failure (Node × List Char)}
      (blank : isSpace c = true) (expression : ReadsExpression room cs o) :
      ReadsExpression room (c :: cs) o
  | missing {room : Nat} : ReadsExpression room [] (.error (.malformed (.endOfText .expression) []))
  | call {room : Nat} {cs : List Char} {o : Except Failure (Node × List Char)}
      (call : ReadsCall room cs o) : ReadsExpression (room + 1) ('(' :: cs) o
  | overflow {cs : List Char} : ReadsExpression 0 ('(' :: cs) (.error (.overflow ('(' :: cs)))
  | quoted {room : Nat} {mark : Char} {text rest : List Char} (quote : isQuote mark = true)
      (inside : mark ∉ text) : ReadsExpression room (mark :: (text ++ mark :: rest))
        (.ok (.quoted (String.ofList text), rest))
  | unclosed {room : Nat} {mark : Char} {text : List Char} (quote : isQuote mark = true)
      (inside : mark ∉ text) :
      ReadsExpression room (mark :: text) (.error (.malformed (.endOfText .stringLiteral) []))
  | name {room : Nat} {cs rest : List Char} {token : String}
      (identifier : IdentifierText true cs token rest) :
      ReadsExpression room cs (.ok (.name token, rest))
  | unexpected {room : Nat} {c : Char} {cs : List Char} (blank : isSpace c = false)
      (opening : c ≠ '(') (quote : isQuote c = false) (start : isNameStart c = false) :
      ReadsExpression room (c :: cs) (.error (.malformed (.unexpected c) (c :: cs)))

/-- A call behind its opening parenthesis. -/
inductive ReadsCall : Nat → List Char → Except Failure (Node × List Char) → Prop where
  | space {room : Nat} {c : Char} {cs : List Char} {o : Except Failure (Node × List Char)}
      (blank : isSpace c = true) (call : ReadsCall room cs o) : ReadsCall room (c :: cs) o
  | missing {room : Nat} : ReadsCall room [] (.error (.malformed (.endOfText .identifier) []))
  | nameExpected {room : Nat} {c : Char} {cs : List Char} (blank : isSpace c = false)
      (start : isNameStart c = false) :
      ReadsCall room (c :: cs) (.error (.malformed .nameExpected (c :: cs)))
  | head {room : Nat} {cs mid : List Char} {token : String}
      {o : Except Failure (Node × List Char)} (identifier : IdentifierText true cs token mid)
      (arguments : ReadsArguments room ⟨token, []⟩ mid o) : ReadsCall room cs o

/-- The arguments that are still to come of a call, one after the other, and the parenthesis that
closes it. -/
inductive ReadsArguments : Nat → OpenCall → List Char → Except Failure (Node × List Char) → Prop
    where
  | space {room : Nat} {call : OpenCall} {c : Char} {cs : List Char}
      {o : Except Failure (Node × List Char)} (blank : isSpace c = true)
      (arguments : ReadsArguments room call cs o) : ReadsArguments room call (c :: cs) o
  | missing {room : Nat} {call : OpenCall} :
      ReadsArguments room call [] (.error (.malformed (.endOfText .callExpression) []))
  | close {room : Nat} {call : OpenCall} {rest : List Char} :
      ReadsArguments room call (')' :: rest) (.ok (call.close, rest))
  | argument {room : Nat} {call : OpenCall} {c : Char} {cs mid : List Char} {a : Node}
      {o : Except Failure (Node × List Char)} (blank : isSpace c = false) (closing : c ≠ ')')
      (expression : ReadsExpression room (c :: cs) (.ok (a, mid)))
      (arguments : ReadsArguments room (call.push a) mid o) : ReadsArguments room call (c :: cs) o
  | fault {room : Nat} {call : OpenCall} {c : Char} {cs : List Char} {e : Failure}
      (blank : isSpace c = false) (closing : c ≠ ')')
      (expression : ReadsExpression room (c :: cs) (.error e)) :
      ReadsArguments room call (c :: cs) (.error e)

end

/-! ## Progress -/

theorem IdentifierText.advances {cs rest : List Char} {token : String}
    (h : IdentifierText true cs token rest) : rest <:+ cs ∧ rest.length < cs.length := by
  obtain @⟨c, more, rest, -, -, -⟩ := h
  refine ⟨List.suffix_append (c :: more) rest, ?_⟩
  simp only [List.length_cons, List.length_append]
  omega

mutual

/-- Reading an expression uses something up. -/
theorem ReadsExpression.advances {room : Nat} {cs : List Char}
    {o : Except Failure (Node × List Char)} : ReadsExpression room cs o → Advances cs o
  | .space _ h => h.advances.cons _
  | .missing => List.suffix_refl _
  | .call h => h.advances.cons _
  | .overflow => List.suffix_refl _
  | @ReadsExpression.quoted _ mark text rest _ _ => by
    refine ⟨⟨mark :: (text ++ [mark]), by simp⟩, ?_⟩
    simp only [List.length_cons, List.length_append]
    omega
  | .unclosed _ _ => List.nil_suffix
  | .name h => h.advances
  | .unexpected _ _ _ _ => List.suffix_refl _

theorem ReadsCall.advances {room : Nat} {cs : List Char} {o : Except Failure (Node × List Char)} :
    ReadsCall room cs o → Advances cs o
  | .space _ h => h.advances.cons _
  | .missing => List.suffix_refl _
  | .nameExpected _ _ => List.suffix_refl _
  | .head hname h => h.advances.of_suffix hname.advances.1

theorem ReadsArguments.advances {room : Nat} {call : OpenCall} {cs : List Char}
    {o : Except Failure (Node × List Char)} : ReadsArguments room call cs o → Advances cs o
  | .space _ h => h.advances.cons _
  | .missing => List.suffix_refl _
  | .close => ⟨List.suffix_cons _ _, Nat.lt_succ_self _⟩
  | .argument _ _ hexpression h => h.advances.of_suffix hexpression.advances.1
  | .fault _ _ hexpression => hexpression.advances

end

/-! ## Every text has an outcome -/

theorem exists_identifierText {c : Char} (h : isNameStart c = true) (cs : List Char) :
    ∃ token rest, IdentifierText true (c :: cs) token rest := by
  have hchars : ∀ d ∈ cs.takeWhile isNameChar, isNameChar d = true :=
    List.all_eq_true.mp List.all_takeWhile
  have hname := IdentifierText.of_ends h hchars (ends_dropWhile isNameChar cs)
  rw [List.takeWhile_append_dropWhile] at hname
  exact ⟨_, _, hname⟩

theorem exists_readsExpression {cs : List Char}
    (hcall : ∀ room cs', cs'.length < cs.length → ∃ o, ReadsCall room cs' o) (room : Nat) :
    ∃ o, ReadsExpression room cs o := by
  induction cs with
  | nil => exact ⟨_, .missing⟩
  | cons c cs ih =>
    by_cases hblank : isSpace c = true
    · obtain ⟨o, ho⟩ := ih fun room cs' hcs' => hcall room cs' (Nat.lt_succ_of_lt hcs')
      exact ⟨o, .space hblank ho⟩
    · by_cases hopen : c = '('
      · subst hopen
        cases room with
        | zero => exact ⟨_, .overflow⟩
        | succ room =>
          obtain ⟨o, ho⟩ := hcall room cs (Nat.lt_succ_self _)
          exact ⟨o, .call ho⟩
      · by_cases hquote : isQuote c = true
        · by_cases hinside : c ∈ cs
          · obtain ⟨text, rest, rfl, htext⟩ := List.eq_append_cons_of_mem hinside
            exact ⟨_, .quoted hquote htext⟩
          · exact ⟨_, .unclosed hquote hinside⟩
        · by_cases hstart : isNameStart c = true
          · obtain ⟨token, rest, hname⟩ := exists_identifierText hstart cs
            exact ⟨_, .name hname⟩
          · exact ⟨_, .unexpected (by simpa using hblank) hopen (by simpa using hquote)
              (by simpa using hstart)⟩

theorem exists_readsCall {cs : List Char} (harguments : ∀ room call cs', cs'.length < cs.length →
    ∃ o, ReadsArguments room call cs' o) (room : Nat) : ∃ o, ReadsCall room cs o := by
  induction cs with
  | nil => exact ⟨_, .missing⟩
  | cons c cs ih =>
    by_cases hblank : isSpace c = true
    · obtain ⟨o, ho⟩ :=
        ih fun room call cs' hcs' => harguments room call cs' (Nat.lt_succ_of_lt hcs')
      exact ⟨o, .space hblank ho⟩
    · by_cases hstart : isNameStart c = true
      · obtain ⟨token, mid, hname⟩ := exists_identifierText hstart cs
        obtain ⟨o, ho⟩ := harguments room ⟨token, []⟩ mid hname.advances.2
        exact ⟨o, .head hname ho⟩
      · exact ⟨_, .nameExpected (by simpa using hblank) (by simpa using hstart)⟩

/-- The arguments of a call have an outcome on every text.  The induction is on the length of the
text.  An argument begins where the text does, but the call that it may be has used a character, and
the arguments behind it have used the argument. -/
theorem exists_readsArguments (room : Nat) (call : OpenCall) (cs : List Char) :
    ∃ o, ReadsArguments room call cs o := by
  match cs with
  | [] => exact ⟨_, .missing⟩
  | c :: cs =>
    by_cases hblank : isSpace c = true
    · obtain ⟨o, ho⟩ := exists_readsArguments room call cs
      exact ⟨o, .space hblank ho⟩
    · by_cases hclose : c = ')'
      · subst hclose
        exact ⟨_, .close⟩
      · have hcalls : ∀ room cs', cs'.length < (c :: cs).length → ∃ o, ReadsCall room cs' o :=
          fun room cs' hcs' => exists_readsCall (fun room call cs'' hcs'' =>
            have hshorter : cs''.length < (c :: cs).length := Nat.lt_trans hcs'' hcs'
            exists_readsArguments room call cs'') room
        obtain ⟨o, ho⟩ := exists_readsExpression hcalls room
        cases o with
        | error e => exact ⟨_, .fault (by simpa using hblank) hclose ho⟩
        | ok p =>
          have hshorter : p.2.length < (c :: cs).length := ho.advances.2
          obtain ⟨o', ho'⟩ := exists_readsArguments room (call.push p.1) p.2
          exact ⟨o', .argument (by simpa using hblank) hclose ho ho'⟩
termination_by cs.length
decreasing_by
  · simp
  · exact hshorter
  · exact hshorter

/-! ## The machine -/

/-- Go on after an outcome inside open calls. -/
def resumeOutcome (limit : Nat) (outer : List OpenCall) :
    Except Failure (Node × List Char) → Except Failure (Node × List Char)
  | .ok (n, rest) => resume limit outer n rest
  | .error e => .error e

@[simp] theorem resumeOutcome_ok (limit : Nat) (outer : List OpenCall) (n : Node)
    (rest : List Char) :
    resumeOutcome limit outer (.ok (n, rest)) = resume limit outer n rest := rfl

theorem resumeOutcome_nil (limit : Nat) (o : Except Failure (Node × List Char)) :
    resumeOutcome limit [] o = o := by
  rcases o with e | ⟨n, rest⟩ <;> rfl

/-- An expression is read here: nothing has been opened, or the call that is open neither passes
over the next character nor ends with it. -/
def IsDue (outer : List OpenCall) (cs : List Char) : Prop :=
  outer = [] ∨ ∃ c rest, cs = c :: rest ∧ isSpace c = false ∧ c ≠ ')'

theorem Reader.read_quoted_unclosed (limit : Nat) (outer : List OpenCall) {mark : Char}
    {text : List Char} (h : mark ∉ text) (letters : List Char) :
    (Reader.mk outer (.quoted mark letters)).read limit text =
      .error (.malformed (.endOfText .stringLiteral) []) := by
  induction text generalizing letters with
  | nil => rfl
  | cons d text ih =>
    have hd : d ≠ mark := fun he => h (he ▸ List.mem_cons_self ..)
    rw [← ih (fun hm => h (List.mem_cons_of_mem d hm)) (d :: letters)]
    exact Reader.read_of_more (by simp [Reader.step, hd])

/-- An expression begins with the next character. -/
theorem Reader.step_of_isDue (limit : Nat) {outer : List OpenCall} {c : Char} {cs : List Char}
    (hblank : isSpace c = false) (hdue : IsDue outer (c :: cs)) :
    (Reader.expecting outer).step limit c = beginExpression limit outer c := by
  rcases hdue with rfl | ⟨d, rest, hcons, -, hclose⟩
  · simp [Reader.expecting, Reader.start, Reader.step, hblank]
  · obtain ⟨rfl, -⟩ := List.cons.inj hcons
    exact Reader.step_expecting limit outer hblank hclose

mutual

/-- The machine reads an expression as the descent does, inside any open calls. -/
theorem ReadsExpression.read {limit room : Nat} {cs : List Char}
    {o : Except Failure (Node × List Char)} : ReadsExpression room cs o →
      ∀ outer, outer.length + room = limit → IsDue outer cs →
        (Reader.expecting outer).read limit cs = resumeOutcome limit outer o
  | .space hblank h, outer, hroom, hdue => by
    rcases hdue with rfl | ⟨c, rest, hcons, hletter, -⟩
    · rw [Reader.read_expecting_space limit [] hblank]
      exact h.read [] hroom (.inl rfl)
    · obtain ⟨rfl, -⟩ := List.cons.inj hcons
      rw [hblank] at hletter
      cases hletter
  | .missing, outer, _, hdue => by
    rcases hdue with rfl | ⟨c, rest, hcons, -, -⟩
    · rfl
    · cases hcons
  | .call h, outer, hroom, _ => by
    rw [Reader.read_expecting_call (by omega)]
    exact h.read outer (by omega)
  | .overflow, outer, hroom, hdue => by
    have hfull : ¬ outer.length < limit := by omega
    refine Reader.read_of_overflow ?_
    rw [Reader.step_of_isDue limit (by decide) hdue]
    simp [beginExpression, hfull]
  | .quoted hquote hinside, outer, _, _ => by
    rw [Reader.read_expecting_quote limit outer hquote, Reader.read_quoted limit outer hinside]
    simp [spell]
  | .unclosed hquote hinside, outer, _, _ => by
    rw [Reader.read_expecting_quote limit outer hquote]
    exact Reader.read_quoted_unclosed limit outer hinside []
  | .name h, outer, _, _ => h.read limit outer
  | .unexpected hblank hopen hquote hstart, outer, _, hdue => by
    refine Reader.read_of_fault ?_
    rw [Reader.step_of_isDue limit hblank hdue]
    simp [beginExpression, hopen, hquote, hstart]

theorem ReadsCall.read {limit room : Nat} {cs : List Char}
    {o : Except Failure (Node × List Char)} : ReadsCall room cs o →
      ∀ outer, outer.length + 1 + room = limit →
        (Reader.mk outer .head).read limit cs = resumeOutcome limit outer o
  | .space hblank h, outer, hroom => by
    rw [Reader.read_head_space limit outer hblank]
    exact h.read outer hroom
  | .missing, _, _ => rfl
  | .nameExpected hblank hstart, outer, _ =>
    Reader.read_of_fault (by simp [Reader.step, hblank, hstart])
  | .head hname h, outer, hroom => by
    rw [hname.read_head]
    exact h.read outer hroom

theorem ReadsArguments.read {limit room : Nat} {call : OpenCall} {cs : List Char}
    {o : Except Failure (Node × List Char)} : ReadsArguments room call cs o →
      ∀ outer, outer.length + 1 + room = limit →
        (Reader.expecting (call :: outer)).read limit cs = resumeOutcome limit outer o
  | .space hblank h, outer, hroom => by
    rw [Reader.read_expecting_space limit _ hblank]
    exact h.read outer hroom
  | .missing, _, _ => rfl
  | .close, outer, _ => by
    rw [Reader.read_expecting_close, resumeOutcome_ok]
  | .argument hblank hclose hexpression h, outer, hroom => by
    rw [hexpression.read (_ :: outer) (by simpa using hroom) (.inr ⟨_, _, rfl, hblank, hclose⟩),
      resumeOutcome_ok, resume_cons]
    exact h.read outer hroom
  | .fault hblank hclose hexpression, outer, hroom => by
    rw [hexpression.read (_ :: outer) (by simpa using hroom) (.inr ⟨_, _, rfl, hblank, hclose⟩)]
    rfl

end

/-- Reading by descent has one outcome, that of the machine. -/
theorem readsExpression_iff {room : Nat} {cs : List Char} {o : Except Failure (Node × List Char)} :
    ReadsExpression room cs o ↔ Reader.start.read room cs = o := by
  have hread : ∀ o, ReadsExpression room cs o → Reader.start.read room cs = o := by
    intro o h
    rw [← resumeOutcome_nil room o]
    exact h.read [] (Nat.zero_add _) (.inl rfl)
  constructor
  · exact hread o
  · rintro rfl
    have hcalls : ∀ room cs', cs'.length < cs.length → ∃ o, ReadsCall room cs' o :=
      fun room cs' _ => exists_readsCall (fun room call cs'' _ =>
        exists_readsArguments room call cs'') room
    obtain ⟨o, ho⟩ := exists_readsExpression hcalls room
    rwa [hread o ho]

/-- So has reading the arguments of a call by descent. -/
theorem readsArguments_iff {room : Nat} {call : OpenCall} {cs : List Char}
    {o : Except Failure (Node × List Char)} :
    ReadsArguments room call cs o ↔ (Reader.expecting [call]).read (room + 1) cs = o := by
  have hread : ∀ o, ReadsArguments room call cs o →
      (Reader.expecting [call]).read (room + 1) cs = o := by
    intro o h
    rw [h.read [] (by rw [List.length_nil]; omega), resumeOutcome_nil]
  constructor
  · exact hread o
  · rintro rfl
    obtain ⟨o, ho⟩ := exists_readsArguments room call cs
    rwa [hread o ho]

/-! ## Templates -/

/-- One segment: a pass of the loop over a template. -/
inductive ReadsSegment (limit : Nat) : List Char → Except Failure (Node × List Char) → Prop where
  | literal {run rest : List Char} (nonempty : run ≠ []) (chars : ∀ c ∈ run, isLiteral c = true)
      (ends : Ends isLiteral rest) :
      ReadsSegment limit (run ++ rest) (.ok (.literal (String.ofList run), rest))
  | expression {cs : List Char} {o : Except Failure (Node × List Char)}
      (expression : ReadsExpression limit cs o) : ReadsSegment limit (sigil :: cs) o

/-- The segments of a template, one after the other up to the end of the text. -/
inductive ReadsSegments (limit : Nat) : List Char → Except Failure (List Node) → Prop where
  | nil : ReadsSegments limit [] (.ok [])
  | more {cs mid : List Char} {s : Node} {o : Except Failure (List Node)}
      (segment : ReadsSegment limit cs (.ok (s, mid))) (rest : ReadsSegments limit mid o) :
      ReadsSegments limit cs (o.map (s :: ·))
  | fault {cs : List Char} {e : Failure} (segment : ReadsSegment limit cs (.error e)) :
      ReadsSegments limit cs (.error e)

theorem ReadsSegment.advances {limit : Nat} {cs : List Char}
    {o : Except Failure (Node × List Char)} (h : ReadsSegment limit cs o) : Advances cs o := by
  cases h with
  | @literal run rest hne _ _ =>
    refine ⟨List.suffix_append run rest, ?_⟩
    have hpos : 0 < run.length := List.length_pos_iff.mpr hne
    rw [List.length_append]
    omega
  | expression h => exact h.advances.cons sigil

/-- The loop over a template reads the segments that reading by descent reads. -/
theorem readsSegments_iff {limit : Nat} {cs : List Char} {o : Except Failure (List Node)} :
    ReadsSegments limit cs o ↔ readSegments limit cs = o := by
  constructor
  · intro h
    induction h with
    | nil => exact readSegments_nil limit
    | more hsegment _ ih =>
      cases hsegment with
      | literal hne hchars hends => rw [readSegments_run hne hchars hends, ih]
      | expression h => rw [readSegments_of_read (readsExpression_iff.mp h), ih]
    | fault hsegment =>
      cases hsegment with
      | expression h => exact readSegments_of_read_error (readsExpression_iff.mp h)
  · rintro rfl
    fun_induction readSegments limit cs with
    | case1 => exact .nil
    | case2 cs e hread => exact .fault (.expression (readsExpression_iff.mpr hread))
    | case3 cs n rest hread ih => exact .more (.expression (readsExpression_iff.mpr hread)) ih
    | case4 c cs hc ih =>
      have hsegment : ReadsSegment limit _ _ := .literal (List.cons_ne_nil c _)
        (forall_isLiteral_takeWhile hc cs) (ends_dropWhile isLiteral cs)
      rw [List.cons_append, List.takeWhile_append_dropWhile] at hsegment
      exact .more hsegment ih

end TextAdventure.Template
