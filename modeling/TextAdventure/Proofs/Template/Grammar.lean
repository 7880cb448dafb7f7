import TextAdventure.Proofs.Template.Segments

/-!
# The grammar of templates

    template   := segment*
    segment    := literal run | '#' expression
    expression := '(' call | string literal | identifier
    call       := identifier expression* ')'
    identifier := [A-Za-z_] [A-Za-z0-9_.]*

A literal run is one or more characters without a sigil.  A string literal stands
between two equal marks and holds anything but that mark.  White space may stand
before an expression, before and after the head of a call, and before the
parenthesis that closes it.

Each relation holds between a text, the tree that is derived and the text that is
left.  The parameter `longest` tells whether identifiers and literal runs have to
be as long as they can.  A derivation says how long they are by what is left, so
longest match is a condition on that text (`Ends`).

Without longest match the grammar is ambiguous: `ab` is one literal run or two.
It accepts no more texts, though (`exists_templateText_iff`).  The reason is that
whatever a name or run gives up in a derivation is taken up again by the name or
run before it, and nothing but a name could begin with what was given up.
-/

namespace TextAdventure.Template

/-! ## Expressions -/

inductive IdentifierText (longest : Bool) : List Char → String → List Char → Prop where
  | mk {c : Char} {more rest : List Char} (start : isNameStart c = true)
      (chars : ∀ d ∈ more, isNameChar d = true) (ends : longest = true → Ends isNameChar rest) :
      IdentifierText longest (c :: (more ++ rest)) (String.ofList (c :: more)) rest

mutual

inductive ExpressionText (longest : Bool) : List Char → Node → List Char → Prop where
  | space {c : Char} {cs rest : List Char} {n : Node} (blank : isSpace c = true)
      (expression : ExpressionText longest cs n rest) : ExpressionText longest (c :: cs) n rest
  | call {cs rest : List Char} {n : Node} (call : CallText longest cs n rest) :
      ExpressionText longest ('(' :: cs) n rest
  | quoted {mark : Char} {text rest : List Char} (quote : isQuote mark = true)
      (inside : mark ∉ text) :
      ExpressionText longest (mark :: (text ++ mark :: rest)) (.quoted (String.ofList text)) rest
  | name {cs rest : List Char} {token : String}
      (identifier : IdentifierText longest cs token rest) :
      ExpressionText longest cs (.name token) rest

/-- A call after its opening parenthesis, up to the closing one. -/
inductive CallText (longest : Bool) : List Char → Node → List Char → Prop where
  /-- White space before the head. -/
  | space {c : Char} {cs rest : List Char} {n : Node} (blank : isSpace c = true)
      (call : CallText longest cs n rest) : CallText longest (c :: cs) n rest
  | head {cs mid rest : List Char} {token : String} {as : List Node}
      (identifier : IdentifierText longest cs token mid)
      (arguments : ArgumentsText longest mid as rest) :
      CallText longest cs (.call (.name token) as) rest

/-- The arguments of a call and its closing parenthesis. -/
inductive ArgumentsText (longest : Bool) : List Char → List Node → List Char → Prop where
  /-- White space after the head or before the closing parenthesis. -/
  | space {c : Char} {cs rest : List Char} {as : List Node} (blank : isSpace c = true)
      (arguments : ArgumentsText longest cs as rest) : ArgumentsText longest (c :: cs) as rest
  | close {rest : List Char} : ArgumentsText longest (')' :: rest) [] rest
  | argument {cs mid rest : List Char} {a : Node} {as : List Node}
      (expression : ExpressionText longest cs a mid)
      (arguments : ArgumentsText longest mid as rest) : ArgumentsText longest cs (a :: as) rest

end

/-! ## Templates -/

inductive SegmentText (longest : Bool) : List Char → Node → List Char → Prop where
  | literal {run rest : List Char} (nonempty : run ≠ []) (chars : ∀ c ∈ run, isLiteral c = true)
      (ends : longest = true → Ends isLiteral rest) :
      SegmentText longest (run ++ rest) (.literal (String.ofList run)) rest
  | expression {cs rest : List Char} {n : Node} (expression : ExpressionText longest cs n rest) :
      SegmentText longest (sigil :: cs) n rest

/-- One or more segments.  Their tree nests sequences to the left. -/
inductive ChainText (longest : Bool) : List Char → Node → List Char → Prop where
  | one {cs rest : List Char} {s : Node} (segment : SegmentText longest cs s rest) :
      ChainText longest cs s rest
  | more {cs mid rest : List Char} {n s : Node} (chain : ChainText longest cs n mid)
      (segment : SegmentText longest mid s rest) : ChainText longest cs (.sequence n s) rest

inductive TemplateText (longest : Bool) : List Char → Node → Prop where
  | empty : TemplateText longest [] .empty
  | chain {cs : List Char} {n : Node} (chain : ChainText longest cs n []) :
      TemplateText longest cs n

/-- A text derives a tree by the grammar with longest match. -/
def Derives (text : String) (n : Node) : Prop := TemplateText true text.toList n

/-- A text derives a tree by the grammar without longest match. -/
def DerivesLoosely (text : String) (n : Node) : Prop := TemplateText false text.toList n

/-! ## Longest match -/

/-- A name that ends where names end is longest. -/
theorem IdentifierText.of_ends {c : Char} {more rest : List Char} (hstart : isNameStart c = true)
    (hchars : ∀ d ∈ more, isNameChar d = true) (hends : Ends isNameChar rest) :
    IdentifierText true (c :: (more ++ rest)) (String.ofList (c :: more)) rest :=
  .mk hstart hchars fun _ => hends

/-- A run of text that ends where literals end is longest. -/
theorem SegmentText.of_ends {run rest : List Char} (hne : run ≠ [])
    (hchars : ∀ c ∈ run, isLiteral c = true) (hends : Ends isLiteral rest) :
    SegmentText true (run ++ rest) (.literal (String.ofList run)) rest :=
  .literal hne hchars fun _ => hends

/-! ## Segments in a list

Chains grow at the right end, but a text is read from the left.  The relation
`SegmentsText` lists the segments of a whole text from the left. -/

inductive SegmentsText (longest : Bool) : List Char → List Node → Prop where
  | nil : SegmentsText longest [] []
  | cons {cs mid : List Char} {s : Node} {segments : List Node}
      (segment : SegmentText longest cs s mid) (rest : SegmentsText longest mid segments) :
      SegmentsText longest cs (s :: segments)

/-- A chain before listed segments makes one tree with them. -/
theorem ChainText.foldl {longest : Bool} {cs mid : List Char} {n : Node} {segments : List Node}
    (hchain : ChainText longest cs n mid) (hrest : SegmentsText longest mid segments) :
    ChainText longest cs (segments.foldl .sequence n) [] := by
  induction hrest generalizing n with
  | nil => exact hchain
  | cons hsegment _ ih => exact ih (.more hchain hsegment)

/-- The segments of a chain, listed before those that follow. -/
theorem ChainText.segments {longest : Bool} {cs mid : List Char} {n : Node}
    (hchain : ChainText longest cs n mid) :
    ∃ s rest, n = Node.ofSegments (s :: rest) ∧ ∀ segments, SegmentsText longest mid segments →
      SegmentsText longest cs (s :: rest ++ segments) := by
  induction hchain with
  | one hsegment => exact ⟨_, [], rfl, fun segments h => .cons hsegment h⟩
  | @more mid rest n t _ hsegment ih =>
    obtain ⟨s, before, rfl, hbefore⟩ := ih
    refine ⟨s, before ++ [t], ?_, fun segments h => ?_⟩
    · rw [← Node.ofSegments_concat, List.cons_append]
    · simpa using hbefore (t :: segments) (.cons hsegment h)

theorem templateText_iff {longest : Bool} {cs : List Char} {n : Node} :
    TemplateText longest cs n ↔
      ∃ segments, SegmentsText longest cs segments ∧ n = Node.ofSegments segments := by
  constructor
  · rintro (_ | hchain)
    · exact ⟨[], .nil, rfl⟩
    · obtain ⟨s, rest, rfl, hsegments⟩ := hchain.segments
      exact ⟨s :: rest, by simpa using hsegments [] .nil, rfl⟩
  · rintro ⟨segments, hsegments, rfl⟩
    cases hsegments with
    | nil => exact .empty
    | cons hsegment hrest => exact .chain (ChainText.foldl (.one hsegment) hrest)

/-! ## Dropping longest match -/

theorem IdentifierText.loosen {longest : Bool} {cs rest : List Char} {token : String}
    (h : IdentifierText true cs token rest) : IdentifierText longest cs token rest := by
  obtain ⟨hstart, hchars, hends⟩ := h
  exact .mk hstart hchars fun _ => hends rfl

mutual

theorem ExpressionText.loosen {longest : Bool} {cs rest : List Char} {n : Node} :
    ExpressionText true cs n rest → ExpressionText longest cs n rest
  | .space hblank h => .space hblank h.loosen
  | .call h => .call h.loosen
  | .quoted hquote hinside => .quoted hquote hinside
  | .name h => .name h.loosen

theorem CallText.loosen {longest : Bool} {cs rest : List Char} {n : Node} :
    CallText true cs n rest → CallText longest cs n rest
  | .space hblank h => .space hblank h.loosen
  | .head hname h => .head hname.loosen h.loosen

theorem ArgumentsText.loosen {longest : Bool} {cs rest : List Char} {as : List Node} :
    ArgumentsText true cs as rest → ArgumentsText longest cs as rest
  | .space hblank h => .space hblank h.loosen
  | .close => .close
  | .argument ha h => .argument ha.loosen h.loosen

end

theorem SegmentText.loosen {longest : Bool} {cs rest : List Char} {s : Node}
    (h : SegmentText true cs s rest) : SegmentText longest cs s rest := by
  cases h with
  | literal hne hchars hends => exact .literal hne hchars fun _ => hends rfl
  | expression h => exact .expression h.loosen

theorem SegmentsText.loosen {longest : Bool} {cs : List Char} {segments : List Node}
    (h : SegmentsText true cs segments) : SegmentsText longest cs segments := by
  induction h with
  | nil => exact .nil
  | cons hsegment _ ih => exact .cons hsegment.loosen ih

/-! ## Giving longest match back

In a derivation without longest match an identifier may stop too early.  It is made
longest by letting it take up the characters behind it, so what was left loses
them: `rest` becomes `rest.dropWhile isNameChar`.  Therefore each statement below
is also about a text whose first name characters are gone. -/

/-- Dropping fewer characters first changes nothing. -/
theorem dropWhile_dropWhile_of_imp {p q : Char → Bool} (h : ∀ c, p c = true → q c = true)
    (cs : List Char) : (cs.dropWhile p).dropWhile q = cs.dropWhile q := by
  induction cs with
  | nil => rfl
  | cons c cs ih =>
    cases hc : p c with
    | true => rw [List.dropWhile_cons_of_pos hc, List.dropWhile_cons_of_pos (h c hc), ih]
    | false => rw [List.dropWhile_cons_of_neg (by simp [hc])]

theorem IdentifierText.tighten {cs rest : List Char} {token : String}
    (h : IdentifierText false cs token rest) :
    ∃ longer, IdentifierText true cs longer (rest.dropWhile isNameChar) := by
  obtain @⟨c, more, rest, hstart, hchars, -⟩ := h
  refine ⟨String.ofList (c :: (more ++ rest.takeWhile isNameChar)), ?_⟩
  have hall : ∀ d ∈ more ++ rest.takeWhile isNameChar, isNameChar d = true := by
    intro d hd
    rcases List.mem_append.mp hd with hmore | htaken
    · exact hchars d hmore
    · exact List.all_eq_true.mp List.all_takeWhile d htaken
  have hlonger := IdentifierText.of_ends hstart hall (ends_dropWhile isNameChar rest)
  rwa [List.append_assoc, List.takeWhile_append_dropWhile] at hlonger

theorem IdentifierText.dropWhile_eq {longest : Bool} {cs rest : List Char} {token : String}
    (h : IdentifierText longest cs token rest) :
    cs.dropWhile isNameChar = rest.dropWhile isNameChar := by
  obtain ⟨hstart, hchars, -⟩ := h
  rw [List.dropWhile_cons_of_pos (isNameChar_of_isNameStart hstart),
    List.dropWhile_append_of_pos hchars]

/-- Nothing but a name loses characters at its front, and a name loses all of them. -/
theorem ExpressionText.dropWhile_eq {longest : Bool} {cs rest : List Char} {n : Node}
    (h : ExpressionText longest cs n rest) :
    cs.dropWhile isNameChar = cs ∨ cs.dropWhile isNameChar = rest.dropWhile isNameChar := by
  cases h with
  | space hblank _ =>
    exact .inl (List.dropWhile_cons_of_neg (by simp [isNameChar_of_isSpace hblank]))
  | call _ => exact .inl (List.dropWhile_cons_of_neg (by decide))
  | quoted hquote _ =>
    exact .inl (List.dropWhile_cons_of_neg (by simp [isNameChar_of_isQuote hquote]))
  | name hname => exact .inr hname.dropWhile_eq

mutual

theorem ExpressionText.tighten {cs rest : List Char} {n : Node} :
    ExpressionText false cs n rest →
      ∃ m, ExpressionText true cs m rest ∨ ExpressionText true cs m (rest.dropWhile isNameChar)
  | .space hblank h => by
    obtain ⟨m, hm | hm⟩ := h.tighten
    · exact ⟨m, .inl (.space hblank hm)⟩
    · exact ⟨m, .inr (.space hblank hm)⟩
  | .call h => by
    obtain ⟨m, hm⟩ := h.tighten
    exact ⟨m, .inl (.call hm)⟩
  | .quoted hquote hinside => ⟨_, .inl (.quoted hquote hinside)⟩
  | .name h => by
    obtain ⟨longer, hlonger⟩ := h.tighten
    exact ⟨.name longer, .inr (.name hlonger)⟩

theorem CallText.tighten {cs rest : List Char} {n : Node} :
    CallText false cs n rest → ∃ m, CallText true cs m rest
  | .space hblank h => by
    obtain ⟨m, hm⟩ := h.tighten
    exact ⟨m, .space hblank hm⟩
  | .head hname h => by
    obtain ⟨longer, hlonger⟩ := hname.tighten
    obtain ⟨bs, hbs⟩ := h.tighten.2
    exact ⟨.call (.name longer) bs, .head hlonger hbs⟩

theorem ArgumentsText.tighten {cs rest : List Char} {as : List Node} :
    ArgumentsText false cs as rest →
      (∃ bs, ArgumentsText true cs bs rest) ∧
        ∃ bs, ArgumentsText true (cs.dropWhile isNameChar) bs rest
  | .space hblank h => by
    obtain ⟨⟨bs, hbs⟩, -⟩ := h.tighten
    rw [List.dropWhile_cons_of_neg (by simp [isNameChar_of_isSpace hblank])]
    exact ⟨⟨bs, .space hblank hbs⟩, ⟨bs, .space hblank hbs⟩⟩
  | .close => by
    rw [List.dropWhile_cons_of_neg (by decide)]
    exact ⟨⟨[], .close⟩, ⟨[], .close⟩⟩
  | .argument hexpression h => by
    obtain ⟨⟨bs, hbs⟩, ⟨ds, hds⟩⟩ := h.tighten
    have hwhole : ∃ bs, ArgumentsText true cs bs rest := by
      obtain ⟨m, hm | hm⟩ := hexpression.tighten
      · exact ⟨m :: bs, .argument hm hbs⟩
      · exact ⟨m :: ds, .argument hm hds⟩
    refine ⟨hwhole, ?_⟩
    rcases hexpression.dropWhile_eq with heq | heq
    · rwa [heq]
    · rw [heq]
      exact ⟨ds, hds⟩

end

theorem isLiteral_of_isNameChar (c : Char) (h : isNameChar c = true) : isLiteral c = true := by
  rw [isLiteral, decide_eq_true_eq]
  rintro rfl
  revert h
  decide

/-- Literal text before segments is a segment, or nothing. -/
theorem SegmentsText.of_dropWhile {cs : List Char} {segments : List Node}
    (h : SegmentsText true (cs.dropWhile isLiteral) segments) :
    ∃ more, SegmentsText true cs more := by
  have hsplit := List.takeWhile_append_dropWhile (p := isLiteral) (l := cs)
  by_cases hrun : cs.takeWhile isLiteral = []
  · rw [hrun, List.nil_append] at hsplit
    exact ⟨segments, hsplit ▸ h⟩
  · have hchars : ∀ c ∈ cs.takeWhile isLiteral, isLiteral c = true :=
      List.all_eq_true.mp List.all_takeWhile
    have hsegment := SegmentText.of_ends hrun hchars (ends_dropWhile isLiteral cs)
    rw [hsplit] at hsegment
    exact ⟨_, .cons hsegment h⟩

/-- The segments behind the literal text that a text begins with. -/
theorem SegmentsText.tighten {cs : List Char} {segments : List Node}
    (h : SegmentsText false cs segments) :
    ∃ others, SegmentsText true (cs.dropWhile isLiteral) others := by
  induction h with
  | nil => exact ⟨[], .nil⟩
  | @cons cs mid s segments hsegment _ ih =>
    obtain ⟨others, hothers⟩ := ih
    cases hsegment with
    | literal hne hchars _ =>
      rw [List.dropWhile_append_of_pos hchars]
      exact ⟨others, hothers⟩
    | @expression cs _ _ hexpression =>
      rw [List.dropWhile_cons_of_neg (by decide)]
      obtain ⟨m, hm | hm⟩ := hexpression.tighten
      · obtain ⟨more, hmore⟩ := SegmentsText.of_dropWhile hothers
        exact ⟨m :: more, .cons (.expression hm) hmore⟩
      · rw [← dropWhile_dropWhile_of_imp isLiteral_of_isNameChar] at hothers
        obtain ⟨more, hmore⟩ := SegmentsText.of_dropWhile hothers
        exact ⟨m :: more, .cons (.expression hm) hmore⟩

/-- Longest match changes the trees of some texts, but not which texts have one. -/
theorem exists_templateText_iff (cs : List Char) :
    (∃ n, TemplateText false cs n) ↔ ∃ n, TemplateText true cs n := by
  constructor
  · rintro ⟨n, hn⟩
    obtain ⟨segments, hsegments, -⟩ := templateText_iff.mp hn
    obtain ⟨others, hothers⟩ := hsegments.tighten
    obtain ⟨more, hmore⟩ := SegmentsText.of_dropWhile hothers
    exact ⟨_, templateText_iff.mpr ⟨more, hmore, rfl⟩⟩
  · rintro ⟨n, hn⟩
    obtain ⟨segments, hsegments, rfl⟩ := templateText_iff.mp hn
    exact ⟨_, templateText_iff.mpr ⟨segments, hsegments.loosen, rfl⟩⟩

end TextAdventure.Template
