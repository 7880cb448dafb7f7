import TextAdventure.Proofs.Template.Descent
import TextAdventure.Proofs.Template.Faults
import TextAdventure.Proofs.Template.Soundness

/-!
# Open calls

A text that begins a template leaves a number of calls open.  `TemplateStart` derives such
texts and that number from the grammar: some complete segments, and then perhaps an
expression that is cut off.  Where it is cut off inside a call, that call is open and the
arguments in front are complete, whatever their number and their own nesting.

Reading meets the limit if and only if some beginning of the text leaves more calls open
(`readSegments_overflow_iff`).  In one direction the beginning ends where reading fails
(`ReadsExpression.begins`).  In the other, reading goes along the beginning up to its end,
unless it meets the limit before (`ExpressionStart.reads`).  On the way an argument that is
complete may meet the limit as well, and if it does not then it is read as it would be with a
larger limit (`Reader.read_of_le`).

So the texts derived are those that can be completed to a template
(`exists_templateStart_iff`), and the nesting of a template is the largest number of calls
that a beginning of it leaves open (`TemplateText.callDepth_le_iff`).
-/

namespace TextAdventure.Template

/-! ## Larger limits -/

section
variable {limit limit' : Nat}

theorem beginExpression_of_le (h : limit ≤ limit') (outer : List OpenCall) (c : Char) :
    beginExpression limit outer c = .overflow ∨
      beginExpression limit outer c = beginExpression limit' outer c := by
  unfold beginExpression
  by_cases hopen : c = '('
  · by_cases hroom : outer.length < limit
    · exact .inr (by simp [hopen, hroom, Nat.lt_of_lt_of_le hroom h])
    · exact .inl (by simp [hopen, hroom])
  · exact .inr (by simp [hopen])

theorem stepArguments_of_le (h : limit ≤ limit') (outer : List OpenCall) (call : OpenCall)
    (c : Char) : stepArguments limit outer call c = .overflow ∨
      stepArguments limit outer call c = stepArguments limit' outer call c := by
  unfold stepArguments
  repeat' split
  · exact .inr rfl
  · exact .inr rfl
  · exact beginExpression_of_le h (call :: outer) c

theorem Reader.step_of_le (h : limit ≤ limit') (r : Reader) (c : Char) :
    r.step limit c = .overflow ∨ r.step limit c = r.step limit' c := by
  obtain ⟨outer, mode⟩ := r
  cases mode with
  | due =>
    simp only [Reader.step]
    split
    · exact .inr rfl
    · exact beginExpression_of_le h outer c
  | head => exact .inr rfl
  | headName letters =>
    simp only [Reader.step]
    split
    · exact .inr rfl
    · exact stepArguments_of_le h outer ⟨spell letters, []⟩ c
  | arguments call => exact stepArguments_of_le h outer call c
  | quoted mark letters => exact .inr rfl
  | name letters =>
    simp only [Reader.step]
    split
    · exact .inr rfl
    · cases outer with
      | nil => exact .inr rfl
      | cons call outer => exact stepArguments_of_le h outer (call.push (.name (spell letters))) c

/-- A larger limit changes nothing, unless the smaller one is met. -/
theorem Reader.read_of_le (h : limit ≤ limit') (r : Reader) (cs : List Char) :
    (∃ rest, r.read limit cs = .error (.overflow rest)) ∨
      r.read limit cs = r.read limit' cs := by
  induction cs generalizing r with
  | nil => exact .inr rfl
  | cons c cs ih =>
    rcases Reader.step_of_le h r c with hdeep | hsame
    · exact .inl ⟨_, Reader.read_of_overflow hdeep⟩
    · cases hs : r.step limit c with
      | more next =>
        rw [Reader.read_of_more hs, Reader.read_of_more (hsame ▸ hs)]
        exact ih next
      | done n => exact .inr (by rw [Reader.read_of_done hs, Reader.read_of_done (hsame ▸ hs)])
      | doneBefore n =>
        exact .inr (by rw [Reader.read_of_doneBefore hs, Reader.read_of_doneBefore (hsame ▸ hs)])
        | overflow =>
        exact .inr (by rw [Reader.read_of_overflow hs, Reader.read_of_overflow (hsame ▸ hs)])
      | fault f => exact .inr (by rw [Reader.read_of_fault hs, Reader.read_of_fault (hsame ▸ hs)])

theorem readSegments_of_le (h : limit ≤ limit') (cs : List Char) :
    (∃ rest, readSegments limit cs = .error (.overflow rest)) ∨
      readSegments limit cs = readSegments limit' cs := by
  fun_induction readSegments limit' cs with
  | case1 => exact .inr (readSegments_nil limit)
  | case2 cs e hread =>
    rcases Reader.read_of_le h Reader.start cs with ⟨rest, hdeep⟩ | hsame
    · exact .inl ⟨rest, readSegments_of_read_error hdeep⟩
    · exact .inr (readSegments_of_read_error (hsame.trans hread))
  | case3 cs n rest hread ih =>
    rcases Reader.read_of_le h Reader.start cs with ⟨rest, hdeep⟩ | hsame
    · exact .inl ⟨rest, readSegments_of_read_error hdeep⟩
    · rw [readSegments_of_read (hsame.trans hread)]
      rcases ih with ⟨left, hdeep⟩ | hrest
      · exact .inl ⟨left, exceptMap_eq_error_iff.mpr hdeep⟩
      · exact .inr (congrArg _ hrest)
  | case4 c cs hc ih =>
    rw [readSegments_literal limit hc]
    rcases ih with ⟨left, hdeep⟩ | hrest
    · exact .inl ⟨left, exceptMap_eq_error_iff.mpr hdeep⟩
    · exact .inr (congrArg _ hrest)

end

/-! ## Another text behind -/

/-- The second text may stand in the place of the first: it begins in the same way, or is empty. -/
def Follows (mid rest : List Char) : Prop := rest = [] ∨ rest.head? = mid.head?

theorem Follows.of_shorter {mid rest : List Char} (h : rest <+: mid) : Follows mid rest := by
  obtain ⟨more, rfl⟩ := h
  cases rest with
  | nil => exact .inl rfl
  | cons c rest => exact .inr rfl

theorem follows_append_or (mid tail : List Char) :
    Follows mid (mid ++ tail) ∨ mid = [] ∧ tail ≠ [] := by
  cases mid with
  | nil =>
    cases tail with
    | nil => exact .inl (.inl rfl)
    | cons c tail => exact .inr ⟨rfl, List.cons_ne_nil c tail⟩
  | cons c mid => exact .inl (.inr rfl)

theorem Follows.ends {p : Char → Bool} {mid rest : List Char} (h : Follows mid rest)
    (hmid : Ends p mid) : Ends p rest := by
  rcases h with rfl | hhead
  · exact ends_nil p
  · rwa [Ends, hhead]

theorem IdentifierText.replace {cs mid : List Char} {token : String}
    (h : IdentifierText true cs token mid) :
    ∃ used, used ≠ [] ∧ cs = used ++ mid ∧
      ∀ rest, Follows mid rest → IdentifierText true (used ++ rest) token rest := by
  obtain @⟨c, more, mid, hstart, hchars, hends⟩ := h
  refine ⟨c :: more, List.cons_ne_nil _ _, rfl, fun rest hrest => ?_⟩
  exact .of_ends hstart hchars (hrest.ends (hends rfl))

theorem ExpressionText.replace {cs mid : List Char} {n : Node}
    (h : ExpressionText true cs n mid) :
    ∃ used, used ≠ [] ∧ cs = used ++ mid ∧
      ∀ rest, Follows mid rest → ExpressionText true (used ++ rest) n rest := by
  have hread : Reader.start.read n.callDepth cs = .ok (n, mid) := h.read [] (by simp)
  have hshorter : mid.length < cs.length := (readsExpression_iff.mpr hread).advances.2
  obtain ⟨used, rfl, hreplace⟩ := Reader.read_replace hread
  refine ⟨used, ?_, rfl, fun rest hrest => ?_⟩
  · rintro rfl
    exact absurd hshorter (Nat.lt_irrefl _)
  · refine .of_read (hreplace rest ?_)
    rcases hrest with rfl | hhead
    · exact .inr (ends_nil _)
    · exact .inl hhead

theorem SegmentText.replace {cs mid : List Char} {s : Node} (h : SegmentText true cs s mid) :
    ∃ used, used ≠ [] ∧ cs = used ++ mid ∧
      ∀ rest, Follows mid rest → SegmentText true (used ++ rest) s rest := by
  cases h with
  | @literal run mid hne hchars hends =>
    exact ⟨run, hne, rfl, fun rest hrest => .of_ends hne hchars (hrest.ends (hends rfl))⟩
  | expression h =>
    obtain ⟨used, -, rfl, hreplace⟩ := h.replace
    exact ⟨sigil :: used, List.cons_ne_nil _ _, rfl,
      fun rest hrest => .expression (hreplace rest hrest)⟩

/-! ## Beginnings -/

mutual

/-- A text that begins an expression and does not complete it, with the number of calls that it
leaves open.  A name is no such text, since it may end anywhere. -/
inductive ExpressionStart : List Char → Nat → Prop where
  | due : ExpressionStart [] 0
  | space {c : Char} {cs : List Char} {k : Nat} (blank : isSpace c = true)
      (expression : ExpressionStart cs k) : ExpressionStart (c :: cs) k
  | call {cs : List Char} {k : Nat} (call : CallStart cs k) : ExpressionStart ('(' :: cs) k
  | quoted {mark : Char} {text : List Char} (quote : isQuote mark = true)
      (inside : mark ∉ text) : ExpressionStart (mark :: text) 0

/-- A text behind an opening parenthesis that does not complete the call. -/
inductive CallStart : List Char → Nat → Prop where
  | due : CallStart [] 1
  | space {c : Char} {cs : List Char} {k : Nat} (blank : isSpace c = true)
      (call : CallStart cs k) : CallStart (c :: cs) k
  | head {cs mid : List Char} {token : String} {k : Nat}
      (identifier : IdentifierText true cs token mid) (arguments : ArgumentsStart mid k) :
      CallStart cs k

/-- A text among the arguments of a call that does not complete the call.  Arguments that are
complete leave nothing open. -/
inductive ArgumentsStart : List Char → Nat → Prop where
  | due : ArgumentsStart [] 1
  | space {c : Char} {cs : List Char} {k : Nat} (blank : isSpace c = true)
      (arguments : ArgumentsStart cs k) : ArgumentsStart (c :: cs) k
  | argument {c : Char} {cs mid : List Char} {a : Node} {k : Nat} (blank : isSpace c = false)
      (expression : ExpressionText true (c :: cs) a mid) (arguments : ArgumentsStart mid k) :
      ArgumentsStart (c :: cs) k
  | inside {c : Char} {cs : List Char} {k : Nat} (blank : isSpace c = false)
      (expression : ExpressionStart (c :: cs) k) : ArgumentsStart (c :: cs) (k + 1)

end

/-- A text that begins a template, with the number of calls that it leaves open. -/
inductive TemplateStart : List Char → Nat → Prop where
  | nil : TemplateStart [] 0
  | segment {cs mid : List Char} {s : Node} {k : Nat} (segment : SegmentText true cs s mid)
      (rest : TemplateStart mid k) : TemplateStart cs k
  | expression {cs : List Char} {k : Nat} (expression : ExpressionStart cs k) :
      TemplateStart (sigil :: cs) k

/-- Any number of calls can be left open. -/
theorem ExpressionStart.nested (k : Nat) :
    ExpressionStart (List.replicate k ['(', 'f', ' ']).flatten k := by
  induction k with
  | zero => exact .due
  | succ k ih =>
    have hhead : ∀ rest, IdentifierText true ('f' :: ' ' :: rest) "f" (' ' :: rest) := fun rest =>
      @IdentifierText.of_ends 'f' [] (' ' :: rest) (by decide) (List.forall_mem_nil _)
        ((ends_cons ..).mpr (by decide))
    refine .call (.head (hhead _) (.space (by decide) ?_))
    cases k with
    | zero => exact .due
    | succ k => exact .inside (by decide) ih

theorem ArgumentsStart.eq_one {k : Nat} (h : ArgumentsStart [] k) : k = 1 := by
  cases h with
  | due => rfl

theorem TemplateStart.eq_zero {k : Nat} (h : TemplateStart [] k) : k = 0 := by
  generalize hcs : ([] : List Char) = cs at h
  cases h with
  | nil => rfl
  | segment hsegment _ =>
    obtain ⟨used, hne, rfl, -⟩ := hsegment.replace
    exact absurd (List.append_eq_nil_iff.mp hcs.symm).1 hne
  | expression _ => cases hcs

/-! ## Where reading fails -/

/-- Behind some beginning of the text reading fails: at the end of the text, or where the beginning
leaves one call too many open. -/
def Begins (starts : List Char → Nat → Prop) (cs : List Char) (e : Failure) (bound : Nat) : Prop :=
  ∃ p k, p <+: cs ∧ starts p k ∧ (e.fault = .tooDeep → k = bound) ∧ (e.rest = [] → p = cs)

theorem Begins.prepend {starts starts' : List Char → Nat → Prop} {mid : List Char} {e : Failure}
    {bound : Nat} (h : Begins starts mid e bound) (used : List Char)
    (himp : ∀ p k, p <+: mid → starts p k → starts' (used ++ p) k) :
    Begins starts' (used ++ mid) e bound := by
  obtain ⟨p, k, hp, hstart, hdeep, hend⟩ := h
  refine ⟨used ++ p, k, (List.prefix_append_right_inj used).mpr hp, himp p k hp hstart, hdeep, ?_⟩
  intro hrest
  rw [hend hrest]

mutual

theorem ReadsExpression.begins {room : Nat} {cs : List Char}
    {o : Except Failure (Node × List Char)} : ReadsExpression room cs o →
      ∀ e, o = .error e → Begins ExpressionStart cs e (room + 1)
  | @ReadsExpression.space _ c _ _ hblank h, e, he =>
    (h.begins e he).prepend [c] fun _ _ _ hstart => .space hblank hstart
  | .missing, _, rfl => ⟨[], 0, List.nil_prefix, .due, Fault.noConfusion, fun _ => rfl⟩
  | .call h, e, he => (h.begins e he).prepend ['('] fun _ _ _ hstart => .call hstart
  | @ReadsExpression.overflow cs, _, rfl =>
    ⟨['('], 1, ⟨cs, rfl⟩, .call .due, fun _ => rfl, fun hrest => by cases hrest⟩
  | .unclosed hquote hinside, _, rfl =>
    ⟨_, 0, List.prefix_refl _, .quoted hquote hinside, Fault.noConfusion, fun _ => rfl⟩
  | .unexpected _ _ _ _, _, rfl =>
    ⟨[], 0, List.nil_prefix, .due, Fault.noConfusion, fun hrest => by cases hrest⟩

theorem ReadsCall.begins {room : Nat} {cs : List Char} {o : Except Failure (Node × List Char)} :
    ReadsCall room cs o → ∀ e, o = .error e → Begins CallStart cs e (room + 2)
  | @ReadsCall.space _ c _ _ hblank h, e, he =>
    (h.begins e he).prepend [c] fun _ _ _ hstart => .space hblank hstart
  | .missing, _, rfl => ⟨[], 1, List.nil_prefix, .due, Fault.noConfusion, fun _ => rfl⟩
  | .nameExpected _ _, _, rfl =>
    ⟨[], 1, List.nil_prefix, .due, Fault.noConfusion, fun hrest => by cases hrest⟩
  | .head hname h, e, he => by
    obtain ⟨used, -, rfl, hreplace⟩ := hname.replace
    exact (h.begins e he).prepend used fun p _ hp hstart =>
      .head (hreplace p (.of_shorter hp)) hstart

theorem ReadsArguments.begins {room : Nat} {call : OpenCall} {cs : List Char}
    {o : Except Failure (Node × List Char)} : ReadsArguments room call cs o →
      ∀ e, o = .error e → Begins ArgumentsStart cs e (room + 2)
  | @ReadsArguments.space _ _ c _ _ hblank h, e, he =>
    (h.begins e he).prepend [c] fun _ _ _ hstart => .space hblank hstart
  | .missing, _, rfl => ⟨[], 1, List.nil_prefix, .due, Fault.noConfusion, fun _ => rfl⟩
  | @ReadsArguments.argument _ _ c cs mid _ _ hblank _ hexpression h, e, he => by
    have hargument := ExpressionText.of_read (readsExpression_iff.mp hexpression)
    obtain ⟨used, hne, hcs, hreplace⟩ := hargument.replace
    obtain ⟨d, used, rfl⟩ := List.exists_cons_of_ne_nil hne
    obtain ⟨rfl, -⟩ := List.cons.inj hcs
    rw [hcs]
    exact (h.begins e he).prepend (c :: used) fun p _ hp hstart =>
      .argument hblank (hreplace p (.of_shorter hp)) hstart
  | @ReadsArguments.fault _ _ c cs e hblank _ hexpression, _, rfl => by
    obtain ⟨p, k, hp, hstart, hdeep, hend⟩ := hexpression.begins e rfl
    cases p with
    | nil =>
      -- The failing argument has not begun, so nothing is open but the call itself.
      have hk : k = 0 := by
        cases hstart with
        | due => rfl
      refine ⟨[], 1, hp, .due, fun hfault => ?_, hend⟩
      have := hdeep hfault
      omega
    | cons d p =>
      obtain ⟨rfl, -⟩ := List.cons_prefix_cons.mp hp
      exact ⟨d :: p, k + 1, hp, .inside hblank hstart, fun hfault => by rw [hdeep hfault], hend⟩

end

theorem ReadsSegment.segmentText {limit : Nat} {cs mid : List Char} {s : Node}
    (h : ReadsSegment limit cs (.ok (s, mid))) : SegmentText true cs s mid := by
  cases h with
  | literal hne hchars hends => exact .of_ends hne hchars hends
  | expression h => exact .expression (.of_read (readsExpression_iff.mp h))

theorem ReadsSegments.begins {limit : Nat} {cs : List Char} {o : Except Failure (List Node)}
    (h : ReadsSegments limit cs o) : ∀ e, o = .error e → Begins TemplateStart cs e (limit + 1) := by
  induction h with
  | nil => intro e he; cases he
  | @more cs mid s o hsegment _ ih =>
    intro e he
    have hrest := ih e (exceptMap_eq_error_iff.mp he)
    obtain ⟨used, -, rfl, hreplace⟩ := hsegment.segmentText.replace
    exact hrest.prepend used fun p _ hp hstart => .segment (hreplace p (.of_shorter hp)) hstart
  | @fault _ e hsegment =>
    intro e' he
    cases he
    cases hsegment with
    | expression h =>
      exact (h.begins e rfl).prepend [sigil] fun _ _ _ hstart => .expression hstart

/-! ## Reading along a beginning -/

/-- Reading a text that begins as derived, with `tail` behind it, meets the limit.  Or else the
calls left open are within it, and without a tail reading goes on to the end of the text. -/
def ReadsAlong {α : Type} (k room : Nat) (tail : List Char)
    (reads : Except Failure α → Prop) : Prop :=
  (∃ rest, reads (.error (.overflow rest))) ∨
    k ≤ room ∧ (tail = [] → ∃ inside, reads (.error (.malformed (.endOfText inside) [])))

theorem ReadsAlong.imp {α β : Type} {k k' room room' : Nat} {tail : List Char}
    {reads : Except Failure α → Prop} {reads' : Except Failure β → Prop}
    (h : ReadsAlong k room tail reads) (hroom : k ≤ room → k' ≤ room')
    (himp : ∀ e, reads (.error e) → reads' (.error e)) : ReadsAlong k' room' tail reads' := by
  rcases h with ⟨rest, hdeep⟩ | ⟨hk, hend⟩
  · exact .inl ⟨rest, himp _ hdeep⟩
  · refine .inr ⟨hroom hk, fun htail => ?_⟩
    obtain ⟨inside, hinside⟩ := hend htail
    exact ⟨inside, himp _ hinside⟩

theorem ReadsAlong.due {α : Type} {k room : Nat} {inside : Construct}
    {reads : List Char → Except Failure α → Prop} (hk : k ≤ room)
    (h : reads [] (.error (.malformed (.endOfText inside) []))) (tail : List Char) :
    ReadsAlong k room tail (reads tail) :=
  .inr ⟨hk, by rintro rfl; exact ⟨inside, h⟩⟩

/-- A complete expression is read, unless it meets the limit. -/
theorem ExpressionText.reads {cs mid tail : List Char} {n : Node}
    (h : ExpressionText true cs n mid) (htail : Follows mid (mid ++ tail)) (room : Nat) :
    ReadsExpression room (cs ++ tail) (.ok (n, mid ++ tail)) ∨
      ∃ rest, ReadsExpression room (cs ++ tail) (.error (.overflow rest)) := by
  obtain ⟨used, -, rfl, hreplace⟩ := h.replace
  have hlarge : Reader.start.read (max room n.callDepth) (used ++ (mid ++ tail)) =
      .ok (n, mid ++ tail) :=
    (hreplace _ htail).read [] (by rw [List.length_nil]; omega)
  simp only [readsExpression_iff, List.append_assoc]
  rcases Reader.read_of_le (Nat.le_max_left room n.callDepth) Reader.start
    (used ++ (mid ++ tail)) with hdeep | hsame
  · exact .inr hdeep
  · exact .inl (hsame.trans hlarge)

/-- So is a complete segment. -/
theorem SegmentText.reads {limit : Nat} {cs mid tail : List Char} {s : Node}
    (h : SegmentText true cs s mid) (htail : Follows mid (mid ++ tail)) :
    ReadsSegment limit (cs ++ tail) (.ok (s, mid ++ tail)) ∨
      ∃ rest, ReadsSegment limit (cs ++ tail) (.error (.overflow rest)) := by
  cases h with
  | literal hne hchars hends =>
    rw [List.append_assoc]
    exact .inl (.literal hne hchars (htail.ends (hends rfl)))
  | expression h =>
    rcases h.reads htail limit with hread | ⟨rest, hdeep⟩
    · exact .inl (.expression hread)
    · exact .inr ⟨rest, .expression hdeep⟩

/-- What does not begin with white space and begins an expression is no closing parenthesis. -/
theorem ExpressionText.ne_close {c : Char} {cs rest : List Char} {n : Node}
    (h : ExpressionText true (c :: cs) n rest) : c ≠ ')' := by
  rintro rfl
  cases h with
  | space hblank _ => exact absurd hblank (by decide)
  | quoted hquote _ => exact absurd hquote (by decide)
  | name hname =>
    obtain ⟨hstart, -, -⟩ := hname
    exact absurd hstart (by decide)

theorem ExpressionStart.ne_close {c : Char} {cs : List Char} {k : Nat}
    (h : ExpressionStart (c :: cs) k) : c ≠ ')' := by
  rintro rfl
  cases h with
  | space hblank _ => exact absurd hblank (by decide)
  | quoted hquote _ => exact absurd hquote (by decide)

mutual

/-- Reading goes along the beginning of an expression. -/
theorem ExpressionStart.reads {p : List Char} {k : Nat} : ExpressionStart p k →
    ∀ room tail, ReadsAlong k room tail (ReadsExpression room (p ++ tail))
  | .due, room, tail => .due (Nat.zero_le room) ReadsExpression.missing tail
  | .space hblank h, room, tail => (h.reads room tail).imp id fun _ => .space hblank
  | .call h, 0, tail => .inl ⟨_, .overflow⟩
  | .call h, room + 1, tail => (h.reads room tail).imp id fun _ => .call
  | @ExpressionStart.quoted mark text hquote hinside, room, tail => by
    refine .inr ⟨Nat.zero_le room, fun htail => ⟨.stringLiteral, ?_⟩⟩
    rw [htail, List.append_nil]
    exact .unclosed hquote hinside

theorem CallStart.reads {p : List Char} {k : Nat} : CallStart p k →
    ∀ room tail, ReadsAlong k (room + 1) tail (ReadsCall room (p ++ tail))
  | .due, room, tail => .due (Nat.le_add_left 1 room) ReadsCall.missing tail
  | .space hblank h, room, tail => (h.reads room tail).imp id fun _ => .space hblank
  | @CallStart.head _ mid token k hname h, room, tail => by
    obtain ⟨used, -, rfl, hreplace⟩ := hname.replace
    rcases follows_append_or mid tail with hfollows | ⟨rfl, htail⟩
    · rw [List.append_assoc]
      exact (h.reads room ⟨token, []⟩ tail).imp id fun _ => .head (hreplace _ hfollows)
    · rw [h.eq_one]
      exact .inr ⟨Nat.le_add_left 1 room, fun hnil => absurd hnil htail⟩

theorem ArgumentsStart.reads {p : List Char} {k : Nat} : ArgumentsStart p k →
    ∀ room call tail, ReadsAlong k (room + 1) tail (ReadsArguments room call (p ++ tail))
  | .due, room, _, tail => .due (Nat.le_add_left 1 room) ReadsArguments.missing tail
  | .space hblank h, room, call, tail => (h.reads room call tail).imp id fun _ => .space hblank
  | @ArgumentsStart.argument c cs mid a k hblank hexpression h, room, call, tail => by
    rcases follows_append_or mid tail with hfollows | ⟨rfl, htail⟩
    · rcases hexpression.reads hfollows room with hread | ⟨rest, hdeep⟩
      · exact (h.reads room (call.push a) tail).imp id fun _ =>
          .argument hblank hexpression.ne_close hread
      · exact .inl ⟨rest, .fault hblank hexpression.ne_close hdeep⟩
    · rw [h.eq_one]
      exact .inr ⟨Nat.le_add_left 1 room, fun hnil => absurd hnil htail⟩
  | .inside hblank h, room, call, tail =>
    (h.reads room tail).imp Nat.succ_le_succ fun _ => .fault hblank h.ne_close

end

/-- Reading goes along the beginning of a template. -/
theorem TemplateStart.reads {p : List Char} {k : Nat} (h : TemplateStart p k) (limit : Nat)
    (tail : List Char) :
    (∃ rest, ReadsSegments limit (p ++ tail) (.error (.overflow rest))) ∨
      k ≤ limit ∧ (tail = [] →
        ∃ o, ReadsSegments limit p o ∧ ∀ e, o = .error e → e.rest = []) := by
  induction h with
  | nil => exact .inr ⟨Nat.zero_le limit, fun _ => ⟨_, .nil, fun e he => by cases he⟩⟩
  | @segment cs mid s k hsegment h ih =>
    rcases follows_append_or mid tail with hfollows | ⟨rfl, htail⟩
    · rcases hsegment.reads hfollows with hread | ⟨rest, hdeep⟩
      · rcases ih with ⟨rest, hdeep⟩ | ⟨hk, hend⟩
        · exact .inl ⟨rest, .more hread hdeep⟩
        · refine .inr ⟨hk, fun htail => ?_⟩
          obtain ⟨o, ho, hrest⟩ := hend htail
          rw [htail, List.append_nil, List.append_nil] at hread
          exact ⟨_, .more hread ho, fun e he => hrest e (exceptMap_eq_error_iff.mp he)⟩
      · exact .inl ⟨rest, .fault hdeep⟩
    · rw [h.eq_zero]
      exact .inr ⟨Nat.zero_le limit, fun hnil => absurd hnil htail⟩
  | expression h =>
    rcases h.reads limit tail with ⟨rest, hdeep⟩ | ⟨hk, hend⟩
    · exact .inl ⟨rest, .fault (.expression hdeep)⟩
    · refine .inr ⟨hk, fun htail => ?_⟩
      obtain ⟨inside, hread⟩ := hend htail
      rw [htail, List.append_nil] at hread
      refine ⟨_, .fault (.expression hread), fun e he => ?_⟩
      cases he
      rfl

/-- A text that is called too deep has a beginning that leaves more calls open than the limit. -/
theorem exists_start_of_tooDeep {limit : Nat} {cs : List Char} {e : Failure}
    (h : readSegments limit cs = .error e) (hfault : e.fault = .tooDeep) :
    ∃ p k, p <+: cs ∧ TemplateStart p k ∧ limit < k := by
  obtain ⟨p, k, hp, hstart, hk, -⟩ := (readsSegments_iff.mpr h).begins e rfl
  exact ⟨p, k, hp, hstart, by rw [hk hfault]; exact Nat.lt_succ_self limit⟩

/-- Reading meets the limit if and only if some beginning of the text leaves more calls open. -/
theorem readSegments_overflow_iff {limit : Nat} {cs : List Char} :
    (∃ rest, readSegments limit cs = .error (.overflow rest)) ↔
      ∃ p k, p <+: cs ∧ TemplateStart p k ∧ limit < k := by
  constructor
  · rintro ⟨rest, hdeep⟩
    exact exists_start_of_tooDeep hdeep rfl
  · rintro ⟨p, k, ⟨tail, rfl⟩, hstart, hk⟩
    rcases hstart.reads limit tail with ⟨rest, hdeep⟩ | ⟨hle, -⟩
    · exact ⟨rest, readsSegments_iff.mp hdeep⟩
    · omega

/-- So does reading one expression. -/
theorem read_overflow_iff {limit : Nat} {cs : List Char} :
    (∃ rest, Reader.start.read limit cs = .error (.overflow rest)) ↔
      ∃ p k, p <+: cs ∧ ExpressionStart p k ∧ limit < k := by
  constructor
  · rintro ⟨rest, hdeep⟩
    obtain ⟨p, k, hp, hstart, hk, -⟩ := (readsExpression_iff.mpr hdeep).begins _ rfl
    exact ⟨p, k, hp, hstart, by rw [hk rfl]; exact Nat.lt_succ_self limit⟩
  · rintro ⟨p, k, ⟨tail, rfl⟩, hstart, hk⟩
    rcases hstart.reads limit tail with ⟨rest, hdeep⟩ | ⟨hle, -⟩
    · exact ⟨rest, readsExpression_iff.mp hdeep⟩
    · omega

/-! ## Templates that begin so -/

mutual

theorem ExpressionStart.le_length {p : List Char} {k : Nat} : ExpressionStart p k → k ≤ p.length
  | .due => Nat.zero_le _
  | .space _ h => Nat.le_succ_of_le h.le_length
  | .call h => h.le_length
  | .quoted _ _ => Nat.zero_le _

theorem CallStart.le_length {p : List Char} {k : Nat} : CallStart p k → k ≤ p.length + 1
  | .due => Nat.le_refl 1
  | .space _ h => Nat.le_succ_of_le h.le_length
  | .head hname h => by
    have hle := h.le_length
    have hshorter := hname.advances.2
    omega

theorem ArgumentsStart.le_length {p : List Char} {k : Nat} :
    ArgumentsStart p k → k ≤ p.length + 1
  | .due => Nat.le_refl 1
  | .space _ h => Nat.le_succ_of_le h.le_length
  | .argument _ hexpression h => by
    have hle := h.le_length
    obtain ⟨used, -, hcs, -⟩ := hexpression.replace
    rw [hcs, List.length_append]
    omega
  | .inside _ h => Nat.succ_le_succ h.le_length

end

/-- No more calls are open than characters have been used. -/
theorem TemplateStart.le_length {p : List Char} {k : Nat} (h : TemplateStart p k) :
    k ≤ p.length := by
  induction h with
  | nil => exact Nat.le_refl 0
  | segment hsegment _ ih =>
    obtain ⟨used, -, rfl, -⟩ := hsegment.replace
    rw [List.length_append]
    omega
  | expression h => exact Nat.le_succ_of_le h.le_length

theorem SegmentsText.templateStart {cs : List Char} {segments : List Node}
    (h : SegmentsText true cs segments) : TemplateStart cs 0 := by
  induction h with
  | nil => exact .nil
  | cons hsegment _ ih => exact .segment hsegment ih

/-- The beginnings of templates are the texts that can be completed to a template. -/
theorem exists_templateStart_iff {p : List Char} :
    (∃ k, TemplateStart p k) ↔ ∃ more n, TemplateText true (p ++ more) n := by
  constructor
  · rintro ⟨k, hstart⟩
    -- With the length of the text as the limit, no beginning of it leaves too many calls open.
    rcases hstart.reads p.length [] with ⟨rest, hdeep⟩ | ⟨-, hend⟩
    · rw [List.append_nil, readsSegments_iff] at hdeep
      obtain ⟨q, j, hq, hj, hlt⟩ := readSegments_overflow_iff.mp ⟨rest, hdeep⟩
      have hle := hj.le_length
      have hshorter := hq.length_le
      omega
    · obtain ⟨o, ho, hrest⟩ := hend rfl
      have hread := readsSegments_iff.mp ho
      cases o with
      | ok segments =>
        refine ⟨[], _, templateText_iff.mpr ⟨segments, ?_, rfl⟩⟩
        rw [List.append_nil]
        exact .of_readSegments hread
      | error e =>
        obtain ⟨c, used, hused, hfault⟩ := FaultAt.of_readSegments hread
        obtain ⟨more, segments, hmore⟩ := hfault.viable
        rw [hrest e rfl, List.append_nil] at hused
        rw [← hused] at hmore
        exact ⟨more, _, templateText_iff.mpr ⟨segments, .of_readSegments hmore, rfl⟩⟩
  · rintro ⟨more, n, hn⟩
    obtain ⟨segments, hread, -⟩ := hn.read (Nat.le_refl n.callDepth)
    cases hp : readSegments n.callDepth p with
    | ok segments => exact ⟨0, (SegmentsText.of_readSegments hp).templateStart⟩
    | error e =>
      obtain ⟨c, used, hused, hfault⟩ := FaultAt.of_readSegments hp
      obtain ⟨q, k, -, hstart, -, hend⟩ := (readsSegments_iff.mpr hp).begins e rfl
      -- A fault before the end would be found in every longer text.
      have hrest : e.rest = [] := by
        cases hrest : e.rest with
        | nil => rfl
        | cons d tail =>
          have hfails := hfault.persists d tail hrest (tail ++ more)
          rw [← List.cons_append, ← List.append_assoc, ← hrest, ← hused, hread] at hfails
          cases hfails
      exact ⟨k, hend hrest ▸ hstart⟩

/-- The nesting of a template is the largest number of calls that its beginnings leave open. -/
theorem TemplateText.callDepth_le_iff {cs : List Char} {n : Node} (h : TemplateText true cs n)
    {limit : Nat} : n.callDepth ≤ limit ↔ ∀ p k, p <+: cs → TemplateStart p k → k ≤ limit := by
  have hopen : (∀ p k, p <+: cs → TemplateStart p k → k ≤ limit) ↔
      ¬ ∃ rest, readSegments limit cs = .error (.overflow rest) := by
    rw [readSegments_overflow_iff]
    simp only [not_exists, not_and, Nat.not_lt]
  rw [hopen]
  constructor
  · rintro hdepth ⟨rest, hdeep⟩
    obtain ⟨segments, hread, -⟩ := h.read hdepth
    rw [hdeep] at hread
    cases hread
  · intro hfits
    obtain ⟨segments, hread, hn⟩ := h.read (Nat.le_max_left n.callDepth limit)
    have hsame :=
      (readSegments_of_le (Nat.le_max_right n.callDepth limit) cs).resolve_left hfits
    rw [hn, Node.callDepth_ofSegments]
    exact deepest_le_of_readSegments (hsame.trans hread)

end TextAdventure.Template
