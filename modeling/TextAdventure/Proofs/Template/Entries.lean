import TextAdventure.Proofs.Template.Segments
import TextAdventure.Proofs.Text.Quoting
import TextAdventure.Template.Outline

/-!
# The entries of an outline

An outline has an entry for each node (`Node.entries`), and two known trees with the same entries
are the same tree (`Node.entries_injective`).  A node and the entries of its children are
followed by an entry that lies no deeper than the node itself (`Surfaces`), so it is clear where
the children end.  The induction is on the number of entries and about several trees of one
depth (`Node.entriesOfAll_append_injective`): the children of the first tree and the trees
beside it are two such lists, and each has fewer entries.

A line tells the entry that it shows: the spaces before the form tell the depth, the form ends at
the first parenthesis, and what is quoted between the parentheses is the text
(`OutlineEntry.line_injective`).
-/

namespace TextAdventure.Template

open Text

/-! ## Nodes -/

mutual

/-- How many nodes a tree has. -/
def Node.size : Node → Nat
  | .sequence l r => l.size + r.size + 1
  | .call f as => f.size + Node.sizeOfAll as + 1
  | _ => 1

/-- How many nodes several trees have. -/
def Node.sizeOfAll : List Node → Nat
  | [] => 0
  | a :: as => a.size + Node.sizeOfAll as

end

theorem Node.exists_children {n : Node} (h : n.isKnown = true) :
    ∃ below, n.children = some below ∧ Node.areKnown below = true := by
  cases n with
  | unknown => cases h
  | sequence l r => exact ⟨[l, r], rfl, by simpa [Node.areKnown, Node.isKnown] using h⟩
  | call f as => exact ⟨f :: as, rfl, by simpa [Node.areKnown, Node.isKnown] using h⟩
  | _ => exact ⟨[], rfl, rfl⟩

/-- A node is given by its form, its own text and its children. -/
theorem Node.eq_of_children_eq {a b : Node} (hform : a.form = b.form) (hlabel : a.label = b.label)
    (hchildren : a.children = b.children) : a = b := by
  cases a <;> cases b <;> simp_all [Node.form, Node.label, Node.children]

mutual

/-- How many nodes lie below one another in a tree. -/
def Node.height : Node → Nat
  | .sequence l r => max l.height r.height + 1
  | .call f as => max f.height (Node.tallest as) + 1
  | _ => 1

/-- How many nodes lie below one another in the tallest tree of a list. -/
def Node.tallest : List Node → Nat
  | [] => 0
  | a :: as => max a.height (Node.tallest as)

end

/-! ## Entries -/

mutual

/-- The entries of the whole outline of a tree whose root lies at a given depth. -/
def Node.entries (depth : Nat) : Node → List OutlineEntry
  | .sequence l r =>
      ⟨depth, "Sequence", none⟩ :: (l.entries (depth + 1) ++ r.entries (depth + 1))
  | .call f as =>
      ⟨depth, "Call", none⟩ :: (f.entries (depth + 1) ++ Node.entriesOfAll (depth + 1) as)
  | n => [⟨depth, n.form, n.label⟩]

/-- The entries of several trees whose roots lie at a given depth. -/
def Node.entriesOfAll (depth : Nat) : List Node → List OutlineEntry
  | [] => []
  | a :: as => a.entries depth ++ Node.entriesOfAll depth as

end

theorem Node.entries_eq {n : Node} {below : List Node} (h : n.children = some below)
    (depth : Nat) : n.entries depth =
      ⟨depth, n.form, n.label⟩ :: Node.entriesOfAll (depth + 1) below := by
  cases n <;> cases h <;> simp [Node.entries, Node.entriesOfAll, Node.form, Node.label]

mutual

theorem Node.length_entries : ∀ (n : Node) (depth : Nat), (n.entries depth).length = n.size
  | .sequence l r, depth => by
    simp only [Node.entries, List.length_cons, List.length_append, Node.size,
      Node.length_entries l, Node.length_entries r]
  | .call f as, depth => by
    simp only [Node.entries, List.length_cons, List.length_append, Node.size,
      Node.length_entries f, Node.length_entriesOfAll as]
  | .empty, _ | .literal _, _ | .quoted _, _ | .name _, _ | .unknown, _ => by
    simp [Node.entries, Node.size]

theorem Node.length_entriesOfAll : ∀ (as : List Node) (depth : Nat),
    (Node.entriesOfAll depth as).length = Node.sizeOfAll as
  | [], _ => by simp [Node.entriesOfAll, Node.sizeOfAll]
  | a :: as, depth => by
    simp only [Node.entriesOfAll, List.length_append, Node.sizeOfAll, Node.length_entries a,
      Node.length_entriesOfAll as]

end

/-- The entry that comes next, if there is one, lies above a depth. -/
def Surfaces (depth : Nat) (rest : List OutlineEntry) : Prop := ∀ e ∈ rest.head?, e.depth < depth

section
variable {depth : Nat} {a : Node} {as : List Node} {rest : List OutlineEntry}

theorem Node.entriesOfAll_cons_append {below : List Node} (h : a.children = some below) :
    Node.entriesOfAll depth (a :: as) ++ rest = ⟨depth, a.form, a.label⟩ ::
      (Node.entriesOfAll (depth + 1) below ++ (Node.entriesOfAll depth as ++ rest)) := by
  rw [Node.entriesOfAll, Node.entries_eq h]
  simp

theorem not_surfaces_entriesOfAll (h : a.isKnown = true) :
    ¬ Surfaces depth (Node.entriesOfAll depth (a :: as) ++ rest) := by
  obtain ⟨below, hbelow, -⟩ := Node.exists_children h
  rw [Node.entriesOfAll_cons_append hbelow]
  exact fun hsurfaces => Nat.lt_irrefl depth (hsurfaces _ rfl)

/-- Behind the children of a node comes nothing that lies deeper than the node. -/
theorem Surfaces.siblings (has : Node.areKnown as = true) (h : Surfaces depth rest) :
    Surfaces (depth + 1) (Node.entriesOfAll depth as ++ rest) := by
  cases as with
  | nil =>
    intro e he
    exact Nat.lt_succ_of_lt (h e he)
  | cons a as =>
    simp only [Node.areKnown, Bool.and_eq_true] at has
    obtain ⟨below, hbelow, -⟩ := Node.exists_children has.1
    rw [Node.entriesOfAll_cons_append hbelow]
    rintro e ⟨rfl⟩
    exact Nat.lt_succ_self depth

end

/-- Entries of trees, with entries behind them that lie above, tell the trees apart. -/
theorem Node.entriesOfAll_append_injective {depth : Nat} {as bs : List Node}
    {rest rest' : List OutlineEntry} (has : Node.areKnown as = true)
    (hbs : Node.areKnown bs = true) (hrest : Surfaces depth rest) (hrest' : Surfaces depth rest')
    (h : Node.entriesOfAll depth as ++ rest = Node.entriesOfAll depth bs ++ rest') :
    as = bs ∧ rest = rest' := by
  match as, bs with
  | [], [] => exact ⟨rfl, h⟩
  | [], b :: bs =>
    simp only [Node.areKnown, Bool.and_eq_true] at hbs
    have hnone := @not_surfaces_entriesOfAll depth b bs rest' hbs.1
    rw [← h] at hnone
    exact absurd hrest hnone
  | a :: as, [] =>
    simp only [Node.areKnown, Bool.and_eq_true] at has
    have hnone := @not_surfaces_entriesOfAll depth a as rest has.1
    rw [h] at hnone
    exact absurd hrest' hnone
  | a :: as, b :: bs =>
    simp only [Node.areKnown, Bool.and_eq_true] at has hbs
    obtain ⟨below, hbelow, hknown⟩ := Node.exists_children has.1
    obtain ⟨below', hbelow', hknown'⟩ := Node.exists_children hbs.1
    have hlength := Node.length_entriesOfAll (a :: as) depth
    have hfewer : (Node.entriesOfAll (depth + 1) below).length <
        (Node.entriesOfAll depth (a :: as)).length ∧
        (Node.entriesOfAll depth as).length < (Node.entriesOfAll depth (a :: as)).length := by
      rw [Node.entriesOfAll, Node.entries_eq hbelow]
      simp only [List.cons_append, List.length_cons, List.length_append]
      omega
    rw [Node.entriesOfAll_cons_append hbelow, Node.entriesOfAll_cons_append hbelow',
      List.cons.injEq, OutlineEntry.mk.injEq] at h
    obtain ⟨⟨-, hform, hlabel⟩, htail⟩ := h
    obtain ⟨hchildren, hsiblings⟩ := Node.entriesOfAll_append_injective hknown hknown'
      (hrest.siblings has.2) (hrest'.siblings hbs.2) htail
    obtain ⟨hothers, hrests⟩ :=
      Node.entriesOfAll_append_injective has.2 hbs.2 hrest hrest' hsiblings
    have hfirst : a = b := Node.eq_of_children_eq hform hlabel (by rw [hbelow, hbelow', hchildren])
    exact ⟨by rw [hfirst, hothers], hrests⟩
termination_by (Node.entriesOfAll depth as).length
decreasing_by
  · exact hfewer.1
  · exact hfewer.2

/-- The entries of a known tree tell the tree. -/
theorem Node.entries_injective {a b : Node} {depth : Nat} (ha : a.isKnown = true)
    (hb : b.isKnown = true) (h : a.entries depth = b.entries depth) : a = b := by
  have hone : ∀ n : Node, n.isKnown = true → Node.areKnown [n] = true := by
    intro n hn
    simp [Node.areKnown, hn]
  have hnone : Surfaces depth [] := by
    rintro e ⟨⟩
  have hlists : Node.entriesOfAll depth [a] ++ [] = Node.entriesOfAll depth [b] ++ [] := by
    simp only [Node.entriesOfAll, h]
  have htrees := Node.entriesOfAll_append_injective (hone a ha) (hone b hb) hnone hnone hlists
  exact (List.cons.inj htrees.1).1

/-! ## Lines -/

/-- An entry shows a node. -/
def OutlineEntry.IsProper (e : OutlineEntry) : Prop :=
  ∃ (depth : Nat) (n : Node), e = ⟨depth, n.form, n.label⟩

mutual

theorem Node.isProper_of_mem_entries : ∀ {n : Node} {depth : Nat} {e : OutlineEntry},
    e ∈ n.entries depth → e.IsProper
  | .sequence l r, depth, e, h => by
    simp only [Node.entries, List.mem_cons, List.mem_append] at h
    rcases h with rfl | hl | hr
    · exact ⟨depth, .sequence l r, rfl⟩
    · exact Node.isProper_of_mem_entries hl
    · exact Node.isProper_of_mem_entries hr
  | .call f as, depth, e, h => by
    simp only [Node.entries, List.mem_cons, List.mem_append] at h
    rcases h with rfl | hf | has
    · exact ⟨depth, .call f as, rfl⟩
    · exact Node.isProper_of_mem_entries hf
    · exact Node.isProper_of_mem_entriesOfAll has
  | .empty, _, _, h | .literal _, _, _, h | .quoted _, _, _, h | .name _, _, _, h
  | .unknown, _, _, h => by
    simp only [Node.entries, List.mem_singleton] at h
    exact ⟨_, _, h⟩

theorem Node.isProper_of_mem_entriesOfAll : ∀ {as : List Node} {depth : Nat} {e : OutlineEntry},
    e ∈ Node.entriesOfAll depth as → e.IsProper
  | [], _, _, h => by simp [Node.entriesOfAll] at h
  | a :: as, depth, e, h => by
    simp only [Node.entriesOfAll, List.mem_append] at h
    rcases h with ha | has
    · exact Node.isProper_of_mem_entries ha
    · exact Node.isProper_of_mem_entriesOfAll has

end

/-- What a line shows between its parentheses. -/
def OutlineEntry.shown (e : OutlineEntry) : String := (e.text.map quote).getD ""

theorem OutlineEntry.toList_line (e : OutlineEntry) : e.line.toList =
    List.replicate (2 * e.depth) ' ' ++ (e.form.toList ++ '(' :: (e.shown.toList ++ [')'])) := by
  simp [OutlineEntry.line, OutlineEntry.shown]

theorem quote_ne_empty (text : String) : quote text ≠ "" := by
  intro h
  have hchars : quoteChars text.toList = [] := String.ofList_injective h
  cases hchars

theorem OutlineEntry.text_eq_of_shown_eq {e f : OutlineEntry} (h : e.shown = f.shown) :
    e.text = f.text := by
  unfold OutlineEntry.shown at h
  cases he : e.text with
  | none =>
    cases hf : f.text with
    | none => rfl
    | some t =>
      rw [he, hf] at h
      exact absurd h.symm (quote_ne_empty t)
  | some s =>
    cases hf : f.text with
    | none =>
      rw [he, hf] at h
      exact absurd h (quote_ne_empty s)
    | some t =>
      rw [he, hf] at h
      rw [quote_injective h]

/-- A run of characters with a property that ends where the property ends is the only one. -/
theorem append_eq_of_ends {p : Char → Bool} {run run' rest rest' : List Char}
    (hrun : ∀ c ∈ run, p c = true) (hrun' : ∀ c ∈ run', p c = true) (hrest : Ends p rest)
    (hrest' : Ends p rest') (h : run ++ rest = run' ++ rest') : run = run' ∧ rest = rest' := by
  have hnone : ∀ cs, Ends p cs → cs.takeWhile p = [] := by
    intro cs hcs
    cases cs with
    | nil => rfl
    | cons c cs => exact List.takeWhile_cons_of_neg (by simpa using hcs)
  have htake := congrArg (List.takeWhile p) h
  rw [List.takeWhile_append_of_pos hrun, List.takeWhile_append_of_pos hrun', hnone rest hrest,
    hnone rest' hrest', List.append_nil, List.append_nil] at htake
  rw [htake] at h
  exact ⟨htake, List.append_cancel_left h⟩

/-- What nodes are called in outlines. -/
def forms : List String :=
  ["Empty", "Sequence", "Literal", "StringLiteral", "Identifier", "Call", "Unknown"]

theorem Node.form_mem (n : Node) : n.form ∈ forms := by
  cases n <;> simp [Node.form, forms]

theorem Node.form_chars (n : Node) : n.form.toList.head?.any (· ≠ ' ') = true ∧
    (∀ c ∈ n.form.toList, decide (c ≠ '(') = true) ∧ ∀ c ∈ n.form.toList, isPrintable c = true := by
  have hforms : ∀ form ∈ forms, form.toList.head?.any (· ≠ ' ') = true ∧
      form.toList.all (· ≠ '(') = true ∧ form.toList.all isPrintable = true := by decide
  obtain ⟨hhead, hparenthesis, hprintable⟩ := hforms n.form n.form_mem
  exact ⟨hhead, List.all_eq_true.mp hparenthesis, List.all_eq_true.mp hprintable⟩

/-- The indentation of a line ends at the form. -/
theorem Node.ends_form (n : Node) (rest : List Char) : Ends (· = ' ') (n.form.toList ++ rest) := by
  have hhead := n.form_chars.1
  cases hform : n.form.toList with
  | nil => rw [hform] at hhead; cases hhead
  | cons c cs =>
    rw [hform] at hhead
    simpa using hhead

theorem OutlineEntry.IsProper.exists_form {e : OutlineEntry} (h : e.IsProper) :
    ∃ n : Node, e.form = n.form := by
  obtain ⟨depth, n, rfl⟩ := h
  exact ⟨n, rfl⟩

/-- A line tells the entry that it shows. -/
theorem OutlineEntry.line_injective {e f : OutlineEntry} (he : e.IsProper) (hf : f.IsProper)
    (h : e.line = f.line) : e = f := by
  have hlines := congrArg String.toList h
  rw [OutlineEntry.toList_line, OutlineEntry.toList_line] at hlines
  obtain ⟨n, hn⟩ := he.exists_form
  obtain ⟨m, hm⟩ := hf.exists_form
  have hspaces : ∀ (k : Nat), ∀ c ∈ List.replicate k ' ', decide (c = ' ') = true := by
    intro k c hc
    simp [List.eq_of_mem_replicate hc]
  have hparenthesis : ∀ rest : List Char, Ends (· ≠ '(') ('(' :: rest) := by
    intro rest
    simp
  rw [hn, hm] at hlines
  obtain ⟨hindents, hbehind⟩ :=
    append_eq_of_ends (hspaces _) (hspaces _) (n.ends_form _) (m.ends_form _) hlines
  obtain ⟨hforms, hbehind⟩ := append_eq_of_ends n.form_chars.2.1 m.form_chars.2.1
    (hparenthesis _) (hparenthesis _) hbehind
  have hdepths : e.depth = f.depth := by
    have hlengths := congrArg List.length hindents
    simp only [List.length_replicate] at hlengths
    omega
  have hshown := List.append_cancel_right (List.cons.inj hbehind).2
  have htexts := OutlineEntry.text_eq_of_shown_eq (String.toList_inj.mp hshown)
  cases e
  cases f
  simp_all [String.toList_inj]

theorem map_line_injective {es fs : List OutlineEntry} (hes : ∀ e ∈ es, e.IsProper)
    (hfs : ∀ f ∈ fs, f.IsProper) (h : es.map OutlineEntry.line = fs.map OutlineEntry.line) :
    es = fs := by
  induction es generalizing fs with
  | nil => exact (List.map_eq_nil_iff.mp h.symm).symm
  | cons e es ih =>
    obtain ⟨f, rest, rfl, hf, hrest⟩ := List.map_eq_cons_iff.mp h.symm
    obtain ⟨he, hes⟩ := List.forall_mem_cons.mp hes
    obtain ⟨hproper, hfs⟩ := List.forall_mem_cons.mp hfs
    rw [OutlineEntry.line_injective he hproper hf.symm, ih hes hfs hrest.symm]

/-- No line of an outline ends before its end. -/
theorem OutlineEntry.isLineBreak_of_mem_line {e : OutlineEntry} (he : e.IsProper) {c : Char}
    (hc : c ∈ e.line.toList) : isLineBreak c = false := by
  apply isLineBreak_of_isPrintable
  obtain ⟨n, hn⟩ := he.exists_form
  simp only [OutlineEntry.toList_line, hn, List.mem_append, List.mem_cons, List.not_mem_nil,
    or_false] at hc
  rcases hc with hindent | hform | rfl | hshown | rfl
  · rw [List.eq_of_mem_replicate hindent]
    decide
  · exact n.form_chars.2.2 c hform
  · decide
  · unfold OutlineEntry.shown at hshown
    cases htext : e.text with
    | none => simp [htext] at hshown
    | some text =>
      rw [htext] at hshown
      exact isPrintable_of_mem_quote hshown
  · decide

end TextAdventure.Template
