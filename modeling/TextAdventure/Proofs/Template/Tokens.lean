import TextAdventure.Proofs.Template.Canonical

/-!
# The names in a tree

All names that occur in a tree, at the heads of calls as well as among the arguments
and between the literals (`Node.tokens`).  Taking a template apart loses none of them
(`Node.tokensOfAll_parts`), so each segment has only names of the whole
(`Node.tokens_subset_of_mem_parts`).  In a tree that is read from a text every name is
an identifier (`isName_of_parse`).
-/

namespace TextAdventure.Template

mutual

/-- The names that occur in a tree, from left to right. -/
def Node.tokens : Node → List String
  | .sequence l r => l.tokens ++ r.tokens
  | .name token => [token]
  | .call f as => f.tokens ++ Node.tokensOfAll as
  | _ => []

/-- The names that occur in the trees of a list. -/
def Node.tokensOfAll : List Node → List String
  | [] => []
  | a :: as => a.tokens ++ Node.tokensOfAll as

end

@[simp] theorem Node.tokens_sequence (l r : Node) :
    (Node.sequence l r).tokens = l.tokens ++ r.tokens := by
  rw [Node.tokens]

@[simp] theorem Node.tokens_name (token : String) : (Node.name token).tokens = [token] := by
  rw [Node.tokens]

@[simp] theorem Node.tokens_call (f : Node) (as : List Node) :
    (Node.call f as).tokens = f.tokens ++ Node.tokensOfAll as := by
  rw [Node.tokens]

@[simp] theorem Node.tokensOfAll_nil : Node.tokensOfAll [] = [] := by
  rw [Node.tokensOfAll]

@[simp] theorem Node.tokensOfAll_cons (a : Node) (as : List Node) :
    Node.tokensOfAll (a :: as) = a.tokens ++ Node.tokensOfAll as := by
  rw [Node.tokensOfAll]

theorem Node.mem_tokensOfAll {token : String} {as : List Node} :
    token ∈ Node.tokensOfAll as ↔ ∃ a ∈ as, token ∈ a.tokens := by
  induction as with
  | nil => simp
  | cons a as ih => simp [ih]

/-! ## Parts of a tree -/

theorem Node.tokens_subset_of_mem {a : Node} {as : List Node} (h : a ∈ as) :
    a.tokens ⊆ Node.tokensOfAll as :=
  fun _ htoken => Node.mem_tokensOfAll.mpr ⟨a, h, htoken⟩

@[simp] theorem Node.tokensOfAll_append (as bs : List Node) :
    Node.tokensOfAll (as ++ bs) = Node.tokensOfAll as ++ Node.tokensOfAll bs := by
  induction as with
  | nil => simp
  | cons a as ih => simp [ih]

/-- Taking a template apart loses no name. -/
theorem Node.tokensOfAll_parts : ∀ n : Node, Node.tokensOfAll n.parts = n.tokens
  | .empty => by simp [Node.parts, Node.tokens]
  | .sequence l r => by
    rw [Node.parts, Node.tokensOfAll_append, Node.tokensOfAll_parts l, Node.tokensOfAll_parts r,
      Node.tokens_sequence]
  | .literal _ | .quoted _ | .name _ | .call .. | .unknown => by simp [Node.parts]

theorem Node.tokens_subset_of_mem_parts {n s : Node} (h : s ∈ n.parts) :
    s.tokens ⊆ n.tokens := by
  rw [← Node.tokensOfAll_parts n]
  exact Node.tokens_subset_of_mem h

/-! ## Names that are read -/

theorem Node.IsExpression.isName {n : Node} (h : n.IsExpression) :
    ∀ token ∈ n.tokens, IsName token := by
  induction h with
  | name hname =>
    rintro token htoken
    rw [Node.tokens_name, List.mem_singleton] at htoken
    exact htoken ▸ hname
  | quoted _ =>
    intro token htoken
    simp [Node.tokens] at htoken
  | call hhead _ ih =>
    intro token htoken
    rw [Node.tokens_call, Node.tokens_name, List.singleton_append, List.mem_cons] at htoken
    rcases htoken with rfl | hargument
    · exact hhead
    · obtain ⟨a, ha, htoken⟩ := Node.mem_tokensOfAll.mp hargument
      exact ih a ha token htoken

theorem Node.IsSegment.isName {s : Node} (h : s.IsSegment) : ∀ token ∈ s.tokens, IsName token := by
  cases h with
  | literal _ _ =>
    intro token htoken
    simp [Node.tokens] at htoken
  | expression he => exact he.isName

theorem Node.IsChain.isName {n last : Node} (h : n.IsChain last) :
    ∀ token ∈ n.tokens, IsName token := by
  induction h with
  | one hs => exact hs.isName
  | more _ hs _ ih =>
    intro token htoken
    rw [Node.tokens_sequence, List.mem_append] at htoken
    rcases htoken with hl | hr
    · exact ih token hl
    · exact hs.isName token hr

/-- Every name in a tree that is read is an identifier. -/
theorem isName_of_parse {text : String} {n : Node} (h : parse text = .ok n) :
    ∀ token ∈ n.tokens, IsName token := by
  rcases (parseWithin_iff_derives.mp h).1.isCanonical with rfl | ⟨last, hchain⟩
  · intro token htoken
    simp [Node.tokens] at htoken
  · exact hchain.isName

/-- An identifier behind a sigil is read as a name. -/
theorem parse_of_isName {token : String} (h : IsName token) :
    parse ("#" ++ token) = .ok (.name token) := by
  have hname := ExpressionText.name (h.identifierText (ends_nil _))
  have htext : ("#" ++ token).toList = sigil :: (token.toList ++ []) := by simp [sigil]
  refine parseWithin_iff_derives.mpr ⟨.chain (.one ?_), by simp⟩
  rw [htext]
  exact .expression hname

end TextAdventure.Template
