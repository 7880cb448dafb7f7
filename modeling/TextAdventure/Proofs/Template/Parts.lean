import TextAdventure.Proofs.Template.Tokens

/-!
# What evaluation reaches next

To evaluate a node is to take it apart into its segments and to go on with the heads and
the arguments of the calls among them.  Those lie below the node (`Node.IsBelow`).  On the
way down a level of calls is left behind (`Node.IsBelow.callDepth_lt`), nothing unknown
turns up in a known tree (`Node.IsBelow.isKnown`), and neither does a new name
(`Node.IsBelow.tokens_subset`).
-/

namespace TextAdventure.Template

/-! ## Segments -/

/-- Taking sequences apart takes no level of calls away. -/
theorem Node.deepest_parts (n : Node) : Node.deepest n.parts = n.callDepth := by
  fun_induction Node.parts n with
  | case1 => rfl
  | case2 l r ihl ihr => rw [Node.deepest_append, ihl, ihr, Node.callDepth_sequence]
  | case3 n _ _ => simp

theorem Node.isKnown_of_mem_parts {n s : Node} (hn : n.isKnown = true) (hs : s ∈ n.parts) :
    s.isKnown = true := by
  fun_induction Node.parts n with
  | case1 => cases hs
  | case2 l r ihl ihr =>
    simp only [Node.isKnown, Bool.and_eq_true] at hn
    rcases List.mem_append.mp hs with hl | hr
    · exact ihl hn.1 hl
    · exact ihr hn.2 hr
  | case3 n _ _ =>
    obtain rfl := List.mem_singleton.mp hs
    exact hn

theorem Node.ne_sequence_of_mem_parts {n s : Node} (hs : s ∈ n.parts) (l r : Node) :
    s ≠ .sequence l r := by
  fun_induction Node.parts n with
  | case1 => cases hs
  | case2 _ _ ihl ihr =>
    rcases List.mem_append.mp hs with hl | hr
    · exact ihl hl
    · exact ihr hr
  | case3 n _ hn =>
    obtain rfl := List.mem_singleton.mp hs
    exact hn l r

theorem Node.ne_empty_of_mem_parts {n s : Node} (hs : s ∈ n.parts) : s ≠ .empty := by
  fun_induction Node.parts n with
  | case1 => cases hs
  | case2 _ _ ihl ihr =>
    rcases List.mem_append.mp hs with hl | hr
    · exact ihl hl
    · exact ihr hr
  | case3 n hn _ =>
    obtain rfl := List.mem_singleton.mp hs
    exact hn

/-! ## Below calls -/

/-- The first node is the head or an argument of a call that is a segment of the second. -/
def Node.IsBelow (m n : Node) : Prop := ∃ f as, .call f as ∈ n.parts ∧ m ∈ f :: as

theorem Node.isBelow_head {f n : Node} {as : List Node} (h : .call f as ∈ n.parts) :
    f.IsBelow n :=
  ⟨f, as, h, List.mem_cons_self⟩

theorem Node.isBelow_argument {f a n : Node} {as : List Node} (h : .call f as ∈ n.parts)
    (ha : a ∈ as) : a.IsBelow n :=
  ⟨f, as, h, List.mem_cons_of_mem f ha⟩

theorem Node.IsBelow.callDepth_lt {m n : Node} (h : m.IsBelow n) : m.callDepth < n.callDepth := by
  obtain ⟨f, as, hcall, hm⟩ := h
  have hle := Node.callDepth_le_deepest hcall
  rw [Node.deepest_parts] at hle
  refine Nat.lt_of_lt_of_le ?_ hle
  rcases List.mem_cons.mp hm with rfl | ha
  · simp only [Node.callDepth]; omega
  · have := Node.callDepth_le_deepest ha
    simp only [Node.callDepth]; omega

theorem Node.IsBelow.isKnown {m n : Node} (h : m.IsBelow n) (hn : n.isKnown = true) :
    m.isKnown = true := by
  obtain ⟨f, as, hcall, hm⟩ := h
  have hknown := Node.isKnown_of_mem_parts hn hcall
  simp only [Node.isKnown, Bool.and_eq_true, Node.areKnown_iff] at hknown
  rcases List.mem_cons.mp hm with rfl | ha
  · exact hknown.1
  · exact hknown.2 m ha

theorem Node.IsBelow.tokens_subset {m n : Node} (h : m.IsBelow n) : m.tokens ⊆ n.tokens := by
  obtain ⟨f, as, hcall, hm⟩ := h
  refine List.Subset.trans ?_ (Node.tokens_subset_of_mem_parts hcall)
  rw [Node.tokens_call]
  rcases List.mem_cons.mp hm with rfl | ha
  · exact List.subset_append_left _ _
  · exact List.Subset.trans (Node.tokens_subset_of_mem ha) (List.subset_append_right _ _)

end TextAdventure.Template
