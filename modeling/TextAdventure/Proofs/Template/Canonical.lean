import TextAdventure.Proofs.Template.Soundness

/-!
# Canonical trees

Which trees does the parser give?  `Node.IsCanonical` answers by looking at the
tree alone.  It is a chain of segments, nested to the left, in which no segment
could have been read together with the one behind it: no literal stands before a
literal, and no name before a literal that the name would go on in
(`Node.MayPrecede`).

Every tree with a derivation is canonical (`TemplateText.isCanonical`), because no segment
could have gone on in the text behind it (`Node.EndsBefore`).
-/

namespace TextAdventure.Template

/-! ## The predicate -/

/-- A letter or `_`, then letters, digits, `_` and points. -/
def IsName (token : String) : Prop :=
  ∃ c more, token.toList = c :: more ∧ isNameStart c = true ∧ ∀ d ∈ more, isNameChar d = true

inductive Node.IsExpression : Node → Prop where
  | name {token : String} (identifier : IsName token) : Node.IsExpression (.name token)
  | quoted {text : String} (quotable : '"' ∉ text.toList ∨ '\'' ∉ text.toList) :
      Node.IsExpression (.quoted text)
  | call {token : String} {as : List Node} (head : IsName token)
      (arguments : ∀ a ∈ as, Node.IsExpression a) : Node.IsExpression (.call (.name token) as)

inductive Node.IsSegment : Node → Prop where
  | literal {text : String} (nonempty : text ≠ "") (plain : sigil ∉ text.toList) :
      Node.IsSegment (.literal text)
  | expression {n : Node} (expression : n.IsExpression) : Node.IsSegment n

/-- A segment may stand right before another. -/
def Node.MayPrecede : Node → Node → Prop
  | .literal _, .literal _ => False
  | .name _, .literal text => Ends isNameChar text.toList
  | _, _ => True

/-- A chain of segments, nested to the left, and its last segment. -/
inductive Node.IsChain : Node → Node → Prop where
  | one {s : Node} (segment : s.IsSegment) : Node.IsChain s s
  | more {n last s : Node} (chain : Node.IsChain n last) (segment : s.IsSegment)
      (adjacent : last.MayPrecede s) : Node.IsChain (.sequence n s) s

def Node.IsCanonical (n : Node) : Prop := n = .empty ∨ ∃ last, n.IsChain last

/-! ## What may follow a segment -/

/-- A segment does not go on in the text behind it. -/
def Node.EndsBefore (rest : List Char) : Node → Prop
  | .literal _ => Ends isLiteral rest
  | .name _ => Ends isNameChar rest
  | _ => True

theorem Node.IsExpression.endsBefore {n : Node} {rest : List Char} (h : n.IsExpression)
    (hends : Ends isNameChar rest) : n.EndsBefore rest := by
  cases h with
  | name _ => exact hends
  | quoted _ => trivial
  | call _ _ => trivial

theorem Node.MayPrecede.of_isExpression {n : Node} (h : n.IsExpression) (last : Node) :
    last.MayPrecede n := by
  cases h <;> cases last <;> trivial

/-- A segment ends before a sigil. -/
theorem Node.endsBefore_sigil (n : Node) (rest : List Char) : n.EndsBefore (sigil :: rest) := by
  cases n with
  | literal _ => simp [Node.EndsBefore, isLiteral]
  | name _ => exact (ends_cons ..).mpr (by decide)
  | _ => trivial

theorem IsName.identifierText {token : String} {rest : List Char} (h : IsName token)
    (hends : Ends isNameChar rest) : IdentifierText true (token.toList ++ rest) token rest := by
  obtain ⟨c, more, htoken, hstart, hchars⟩ := h
  have hname := IdentifierText.of_ends hstart hchars hends
  rwa [← htoken, String.ofList_toList, ← List.cons_append, ← htoken] at hname

/-! ## Derived trees are canonical -/

theorem IdentifierText.isName {longest : Bool} {cs rest : List Char} {token : String}
    (h : IdentifierText longest cs token rest) : IsName token := by
  obtain @⟨c, more, rest, hstart, hchars, -⟩ := h
  exact ⟨c, more, by simp, hstart, hchars⟩

mutual

theorem ExpressionText.isExpression {longest : Bool} {cs rest : List Char} {n : Node} :
    ExpressionText longest cs n rest → n.IsExpression
  | .space _ h => h.isExpression
  | .call h => h.isExpression
  | @ExpressionText.quoted _ mark text _ hquote hinside => by
    refine .quoted ?_
    rcases (isQuote_iff mark).mp hquote with rfl | rfl
    · exact .inr (by simpa using hinside)
    · exact .inl (by simpa using hinside)
  | .name h => .name h.isName

theorem CallText.isExpression {longest : Bool} {cs rest : List Char} {n : Node} :
    CallText longest cs n rest → n.IsExpression
  | .space _ h => h.isExpression
  | .head hname h => .call hname.isName h.isExpression

theorem ArgumentsText.isExpression {longest : Bool} {cs rest : List Char} {as : List Node} :
    ArgumentsText longest cs as rest → ∀ a ∈ as, a.IsExpression
  | .space _ h => h.isExpression
  | .close => by simp
  | .argument ha h => List.forall_mem_cons.mpr ⟨ha.isExpression, h.isExpression⟩

end

mutual

theorem ExpressionText.endsBefore {cs rest : List Char} {n : Node} :
    ExpressionText true cs n rest → n.EndsBefore rest
  | .space _ h => h.endsBefore
  | .call h => h.endsBefore
  | .quoted _ _ => trivial
  | .name (.mk _ _ hends) => hends rfl

theorem CallText.endsBefore {cs rest : List Char} {n : Node} :
    CallText true cs n rest → n.EndsBefore rest
  | .space _ h => h.endsBefore
  | .head _ _ => trivial

end

theorem SegmentText.isSegment {cs rest : List Char} {s : Node} (h : SegmentText true cs s rest) :
    s.IsSegment ∧ s.EndsBefore rest := by
  cases h with
  | literal hne hchars hends =>
    refine ⟨.literal ?_ ?_, hends rfl⟩
    · intro hempty
      exact hne (by simpa using congrArg String.toList hempty)
    · intro hsigil
      have hplain := hchars sigil (by simpa using hsigil)
      revert hplain
      decide
  | expression h => exact ⟨.expression h.isExpression, h.endsBefore⟩

/-- What is left behind a segment does not begin with a segment that would have been a part of
it. -/
theorem SegmentText.mayPrecede {mid rest : List Char} {last s : Node} (h : last.EndsBefore mid)
    (hs : SegmentText true mid s rest) : last.MayPrecede s := by
  cases hs with
  | @literal run rest hne hchars _ =>
    obtain ⟨c, run, rfl⟩ := List.exists_cons_of_ne_nil hne
    cases last with
    | literal _ =>
      have hc : isLiteral c = false := (ends_cons ..).mp h
      rw [hchars c (List.mem_cons_self ..)] at hc
      cases hc
    | name _ =>
      have hc : isNameChar c = false := (ends_cons ..).mp h
      simpa [Node.MayPrecede] using hc
    | _ => trivial
  | expression h => exact .of_isExpression h.isExpression last

theorem ChainText.isChain {cs rest : List Char} {n : Node} (h : ChainText true cs n rest) :
    ∃ last, n.IsChain last ∧ last.EndsBefore rest := by
  induction h with
  | one hs => exact ⟨_, .one hs.isSegment.1, hs.isSegment.2⟩
  | more _ hs ih =>
    obtain ⟨last, hchain, hends⟩ := ih
    exact ⟨_, .more hchain hs.isSegment.1 (hs.mayPrecede hends), hs.isSegment.2⟩

theorem TemplateText.isCanonical {cs : List Char} {n : Node} (h : TemplateText true cs n) :
    n.IsCanonical := by
  cases h with
  | empty => exact .inl rfl
  | chain hchain =>
    obtain ⟨last, hlast, -⟩ := hchain.isChain
    exact .inr ⟨last, hlast⟩

end TextAdventure.Template
