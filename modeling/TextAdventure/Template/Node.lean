/-!
# Template nodes

A template is literal text with expressions in it.  Its tree is built from
seven kinds of node.  `sequence` joins two templates, and `empty` is the
template of no text.  An expression is a quoted string, a name, or a call of one
expression on others.  A node of the last kind, `unknown`, belongs to no form of
the language and occurs in trees built by hand only.

The *segments* of a node are what is left when its sequences are taken apart and
empty templates are dropped.  They are computed with a list of the nodes still
to visit, so that a long template needs no deep recursion.  `segments_eq_parts`
says that this is the recursive definition `Node.parts`.

Other work on trees does recurse, and the room for that is limited (`freeFrames`).
-/

namespace TextAdventure.Template

/-- A node of a template tree. -/
inductive Node where
  /-- The template of no text. -/
  | empty
  /-- One template after another. -/
  | sequence (left right : Node)
  /-- Text outside of expressions. -/
  | literal (text : String)
  /-- A quoted string inside an expression. -/
  | quoted (text : String)
  /-- A name: that of a builtin function or the dotted name of an entity. -/
  | name (token : String)
  /-- A function applied to arguments. -/
  | call (callee : Node) (arguments : List Node)
  /-- A node of no form of the language. -/
  | unknown
deriving Repr, Inhabited

/-! ## Equality -/

mutual

/-- Decide whether two trees are equal. -/
def Node.beq : Node → Node → Bool
  | .empty, .empty => true
  | .sequence a b, .sequence c d => a.beq c && b.beq d
  | .literal s, .literal t => s == t
  | .quoted s, .quoted t => s == t
  | .name s, .name t => s == t
  | .call f as, .call g bs => f.beq g && Node.beqList as bs
  | .unknown, .unknown => true
  | _, _ => false

/-- Decide whether two lists of trees are equal. -/
def Node.beqList : List Node → List Node → Bool
  | [], [] => true
  | a :: as, b :: bs => a.beq b && Node.beqList as bs
  | _, _ => false

end

mutual

theorem Node.beq_iff : ∀ a b : Node, a.beq b = true ↔ a = b
  | .empty, b => by cases b <;> simp [Node.beq]
  | .sequence a₁ a₂, b => by
      cases b with
      | sequence b₁ b₂ => simp [Node.beq, Node.beq_iff a₁ b₁, Node.beq_iff a₂ b₂]
      | _ => simp [Node.beq]
  | .literal s, b => by cases b <;> simp [Node.beq]
  | .quoted s, b => by cases b <;> simp [Node.beq]
  | .name s, b => by cases b <;> simp [Node.beq]
  | .call f as, b => by
      cases b with
      | call g bs => simp [Node.beq, Node.beq_iff f g, Node.beqList_iff as bs]
      | _ => simp [Node.beq]
  | .unknown, b => by cases b <;> simp [Node.beq]

theorem Node.beqList_iff : ∀ as bs : List Node, Node.beqList as bs = true ↔ as = bs
  | [], bs => by cases bs <;> simp [Node.beqList]
  | a :: as, bs => by
      cases bs with
      | nil => simp [Node.beqList]
      | cons b bs => simp [Node.beqList, Node.beq_iff a b, Node.beqList_iff as bs]

end

instance : DecidableEq Node := fun a b => decidable_of_iff _ (Node.beq_iff a b)

/-! ## Known trees -/

mutual

/-- Decide whether every node of a tree is of a form of the language. -/
def Node.isKnown : Node → Bool
  | .sequence l r => l.isKnown && r.isKnown
  | .call f as => f.isKnown && Node.areKnown as
  | .unknown => false
  | _ => true

/-- Decide whether every tree of a list is known. -/
def Node.areKnown : List Node → Bool
  | [] => true
  | a :: as => a.isKnown && Node.areKnown as

end

/-- Decide whether two trees have the same form and content.  A node of no form is not the same as
any node, so this holds of known trees only. -/
def Node.same (a b : Node) : Bool := a.isKnown && decide (a = b)

theorem Node.same_iff (a b : Node) : a.same b = true ↔ a = b ∧ a.isKnown = true := by
  simp [Node.same, and_comm]

theorem Node.areKnown_iff (as : List Node) :
    Node.areKnown as = true ↔ ∀ a ∈ as, a.isKnown = true := by
  induction as with
  | nil => simp [Node.areKnown]
  | cons a as ih => simp [Node.areKnown, ih]

/-! ## Children and forms -/

/-- The nodes right below a node, in source order.  A node of no form has no answer. -/
def Node.children : Node → Option (List Node)
  | .sequence l r => some [l, r]
  | .call f as => some (f :: as)
  | .unknown => none
  | _ => some []

/-- What a node is called in listings of a tree. -/
def Node.form : Node → String
  | .empty => "Empty"
  | .sequence .. => "Sequence"
  | .literal _ => "Literal"
  | .quoted _ => "StringLiteral"
  | .name _ => "Identifier"
  | .call .. => "Call"
  | .unknown => "Unknown"

/-! ## Segments -/

/-- The segments of a template by recursion on its tree. -/
def Node.parts : Node → List Node
  | .empty => []
  | .sequence l r => l.parts ++ r.parts
  | n => [n]

/-- How many nodes are visited to take a template apart. -/
def Node.spread : Node → Nat
  | .sequence l r => l.spread + r.spread + 1
  | _ => 1

theorem Node.spread_pos (n : Node) : 0 < n.spread := by
  cases n <;> simp [Node.spread]

/-- How many nodes are visited to take all templates of a list apart. -/
def spreadSum : List Node → Nat
  | [] => 0
  | n :: rest => n.spread + spreadSum rest

theorem spreadSum_lt_cons (n : Node) (rest : List Node) :
    spreadSum rest < spreadSum (n :: rest) := by
  have := n.spread_pos
  simp only [spreadSum]; omega

theorem spreadSum_lt_sequence (l r : Node) (rest : List Node) :
    spreadSum (l :: r :: rest) < spreadSum (.sequence l r :: rest) := by
  simp only [spreadSum, Node.spread]; omega

/-- The segments of the templates still to visit, the first one first. -/
def segmentsOf : List Node → List Node
  | [] => []
  | .sequence l r :: rest => segmentsOf (l :: r :: rest)
  | .empty :: rest => segmentsOf rest
  | n :: rest => n :: segmentsOf rest
termination_by pending => spreadSum pending
decreasing_by
  · exact spreadSum_lt_sequence l r rest
  · exact spreadSum_lt_cons .empty rest
  · exact spreadSum_lt_cons n rest

/-- The segments of a template: its parts that are neither sequences nor empty, in source order. -/
def Node.segments (n : Node) : List Node := segmentsOf [n]

theorem segmentsOf_eq (pending : List Node) : segmentsOf pending = pending.flatMap Node.parts := by
  fun_induction segmentsOf pending with
  | case1 => rfl
  | case2 l r rest ih => simp [ih, Node.parts]
  | case3 rest ih => simp [ih, Node.parts]
  | case4 n rest hseq hempty ih =>
    have hn : n.parts = [n] := by
      cases n with
      | sequence l r => exact (hseq l r rfl).elim
      | empty => exact (hempty rfl).elim
      | _ => rfl
    simp [ih, hn]

/-- The list of nodes still to visit gives the recursive definition. -/
theorem Node.segments_eq_parts (n : Node) : n.segments = n.parts := by
  simp [Node.segments, segmentsOf_eq]

/-- The template made of segments: sequences nested to the left. -/
def Node.ofSegments : List Node → Node
  | [] => .empty
  | s :: rest => rest.foldl .sequence s

/-! ## Room for recursion -/

/-- How many frames the stack may hold.  What recurses over texts or trees takes some of them at
each level and overflows when none is left. -/
def stackFrames : Nat := 1000

/-- How many frames are in use before any of that begins. -/
def framesInUse : Nat := 10

/-- How many frames there are for recursion. -/
def freeFrames : Nat := stackFrames - framesInUse

end TextAdventure.Template
