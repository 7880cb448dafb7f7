import TextAdventure.Proofs.Command.Terminals

/-!
# The trees of commands

The tokens of a sentence are the first one, those of the object and those from the first
connector on (`IsCut`), and the tree has a branch for each of these parts that has tokens
(`derives_body_iff`).  Any tokens of words behind a first one that opens a sentence can be cut in
this way.  So a sentence may always go on with a word (`accepts_later`), and it may end
wherever the words end (`exists_derives_body`).
-/

namespace TextAdventure

open Text

/-! ## Rules -/

/-- The terminals of the words in an object. -/
def objectKinds : List String := ["WORD", "VERB", "DIRECTION", "_ARTICLE"]

/-- The terminals that a sentence opens with. -/
def openingKinds : List String := ["VERB", "DIRECTION"]

/-- The trees of tokens. -/
def treesOf (ts : List Token) : List Tree := ts.flatMap Token.trees

@[simp] theorem treesOf_nil : treesOf [] = [] := rfl

@[simp] theorem treesOf_cons (t : Token) (ts : List Token) :
    treesOf (t :: ts) = t.trees ++ treesOf ts := rfl

/-- A connector is shown. -/
theorem treesOf_connector {c : Token} (h : c.kind = "CONNECTOR") (ts : List Token) :
    treesOf (c :: ts) = .leaf c :: treesOf ts := by
  have hshown : isHidden "CONNECTOR" = false := by decide
  rw [treesOf_cons, Token.trees, h, hshown]
  rfl

variable {ts : List Token} {trees : List Tree}

/-- The phrase is one token of some terminals, and is read as that token. -/
def TakesOne (p : Phrase) (kinds : List String) : Prop :=
  ∀ ts trees, Derives p ts trees ↔ ∃ t, t.kind ∈ kinds ∧ ts = [t] ∧ trees = t.trees

theorem takesOne_terminal (name : String) : TakesOne (.terminal name) [name] := by
  intro ts trees
  simp only [derives_terminal_iff, List.mem_singleton]

theorem TakesOne.either {p q : Phrase} {kinds more : List String} (hp : TakesOne p kinds)
    (hq : TakesOne q more) : TakesOne (.either p q) (kinds ++ more) := by
  intro ts trees
  simp only [derives_either_iff, hp ts trees, hq ts trees, List.mem_append, or_and_right,
    exists_or]

/-- A rule that is shown has a branch. -/
theorem derives_branch_iff {name : String} (hname : isHidden name = false) {p : Phrase} :
    Derives (.rule name p) ts trees ↔
      ∃ children, Derives p ts children ∧ trees = [.branch name children] := by
  simp only [derives_rule_iff, ruleTrees, hname, Bool.false_eq_true, if_false]

theorem takesOne_wordRule : TakesOne wordRule objectKinds := by
  intro ts trees
  have hwords := (takesOne_terminal "WORD").either ((takesOne_terminal "VERB").either
    ((takesOne_terminal "DIRECTION").either (takesOne_terminal "_ARTICLE")))
  have hhidden : isHidden "_word" = true := by decide
  simp only [wordRule, derives_rule_iff, ruleTrees, hhidden, if_true, exists_eq_right']
  exact hwords ts trees

/-- A phrase of tokens that are taken one by one. -/
theorem TakesOne.many {p : Phrase} {kinds : List String} (h : TakesOne p kinds) :
    Derives (.many p) ts trees ↔ (∀ t ∈ ts, t.kind ∈ kinds) ∧ trees = treesOf ts := by
  induction ts generalizing trees with
  | nil => simp [derives_many_nil_iff]
  | cons t ts ih =>
    simp only [derives_many_cons_iff, h _ _, List.forall_mem_cons]
    constructor
    · rintro ⟨us, vs, firsts, seconds, ⟨u, hu, hus, rfl⟩, hmany, rfl, rfl⟩
      obtain ⟨rfl, rfl⟩ := List.cons.inj hus
      obtain ⟨hkinds, rfl⟩ := ih.mp hmany
      exact ⟨⟨hu, hkinds⟩, rfl⟩
    · rintro ⟨⟨ht, hkinds⟩, rfl⟩
      exact ⟨[], ts, t.trees, treesOf ts, ⟨t, ht, rfl, rfl⟩, ih.mpr ⟨hkinds, rfl⟩, rfl, rfl⟩

theorem TakesOne.some {p : Phrase} {kinds : List String} (h : TakesOne p kinds) :
    Derives p.some ts trees ↔ ts ≠ [] ∧ (∀ t ∈ ts, t.kind ∈ kinds) ∧ trees = treesOf ts := by
  simp only [Phrase.some, derives_andThen_iff, h _ _, h.many]
  constructor
  · rintro ⟨us, vs, firsts, seconds, ⟨t, ht, rfl, rfl⟩, ⟨hkinds, rfl⟩, rfl, rfl⟩
    exact ⟨List.cons_ne_nil t vs, List.forall_mem_cons.mpr ⟨ht, hkinds⟩, rfl⟩
  · rintro ⟨hne, hkinds, rfl⟩
    obtain ⟨t, ts, rfl⟩ := List.exists_cons_of_ne_nil hne
    obtain ⟨ht, hrest⟩ := List.forall_mem_cons.mp hkinds
    exact ⟨[t], ts, t.trees, treesOf ts, ⟨t, ht, rfl, rfl⟩, ⟨hrest, rfl⟩, rfl, rfl⟩

theorem derives_optional_iff {p : Phrase} :
    Derives p.optional ts trees ↔ Derives p ts trees ∨ ts = [] ∧ trees = [] := by
  rw [Phrase.optional, derives_either_iff, derives_read_iff]

/-! ## Parts -/

/-- The branch of a part with its tokens, if there are any. -/
def partTrees (form : String) (ts : List Token) : List Tree :=
  if ts = [] then [] else [.branch form (treesOf ts)]

theorem derives_object_iff : Derives objectRule.optional ts trees ↔
    (∀ t ∈ ts, t.kind ∈ objectKinds) ∧ trees = partTrees "object" ts := by
  rw [derives_optional_iff, objectRule, derives_branch_iff (by decide)]
  simp only [takesOne_wordRule.some, partTrees]
  constructor
  · rintro (⟨_, ⟨hne, hkinds, rfl⟩, rfl⟩ | ⟨rfl, rfl⟩)
    · exact ⟨hkinds, (if_neg hne).symm⟩
    · exact ⟨List.forall_mem_nil _, rfl⟩
  · rintro ⟨hkinds, rfl⟩
    by_cases hnil : ts = []
    · exact .inr ⟨hnil, if_pos hnil⟩
    · exact .inl ⟨_, ⟨hnil, hkinds, rfl⟩, if_neg hnil⟩

theorem mem_wordKinds_iff (kind : String) :
    kind ∈ wordKinds ↔ kind ∈ objectKinds ∨ kind = "CONNECTOR" := by
  simp only [wordKinds, objectKinds, List.mem_cons, List.not_mem_nil, or_false]
  grind

/-- Behind the connector of an indirect object stand words of any kind. -/
theorem takesOne_laterWord : TakesOne (.either wordRule (.terminal "CONNECTOR")) wordKinds := by
  intro ts trees
  rw [takesOne_wordRule.either (takesOne_terminal "CONNECTOR") ts trees]
  simp only [List.mem_append, List.mem_singleton, mem_wordKinds_iff]

theorem derives_indirectRule_iff : Derives indirectRule ts trees ↔
    ∃ c later, ts = c :: later ∧ c.kind = "CONNECTOR" ∧ (∀ t ∈ later, t.kind ∈ wordKinds) ∧
      trees = [.branch "indirect" (treesOf ts)] := by
  rw [indirectRule, derives_branch_iff (by decide)]
  simp only [derives_andThen_iff, derives_terminal_iff, takesOne_laterWord.many]
  constructor
  · rintro ⟨_, ⟨_, later, _, _, ⟨c, hc, rfl, rfl⟩, ⟨hlater, rfl⟩, rfl, rfl⟩, rfl⟩
    exact ⟨c, later, rfl, hc, hlater, rfl⟩
  · rintro ⟨c, later, rfl, hc, hlater, rfl⟩
    exact ⟨_, ⟨[c], later, _, _, ⟨c, hc, rfl, rfl⟩, ⟨hlater, rfl⟩, rfl, rfl⟩, rfl⟩

theorem derives_indirect_iff : Derives indirectRule.optional ts trees ↔
    (∀ t ∈ ts.head?, t.kind = "CONNECTOR") ∧ (∀ t ∈ ts, t.kind ∈ wordKinds) ∧
      trees = partTrees "indirect" ts := by
  rw [derives_optional_iff, derives_indirectRule_iff]
  constructor
  · rintro (⟨c, later, rfl, hc, hlater, rfl⟩ | ⟨rfl, rfl⟩)
    · refine ⟨by simpa using hc, List.forall_mem_cons.mpr ⟨?_, hlater⟩, rfl⟩
      exact (mem_wordKinds_iff c.kind).mpr (.inr hc)
    · exact ⟨by simp, List.forall_mem_nil _, rfl⟩
  · rintro ⟨hhead, hkinds, rfl⟩
    cases ts with
    | nil => exact .inr ⟨rfl, rfl⟩
    | cons c later =>
      exact .inl ⟨c, later, rfl, hhead c rfl, (List.forall_mem_cons.mp hkinds).2, rfl⟩

/-- The form of an opening. -/
def openingForm (kind : String) : String := if kind = "VERB" then "verb" else "direction"

theorem mem_openingKinds_iff (kind : String) :
    kind ∈ openingKinds ↔ kind = "VERB" ∨ kind = "DIRECTION" := by
  simp only [openingKinds, List.mem_cons, List.not_mem_nil, or_false]

theorem derives_action_iff : Derives actionRule ts trees ↔ ∃ t, t.kind ∈ openingKinds ∧
    ts = [t] ∧ trees = [.branch (openingForm t.kind) [.leaf t]] := by
  have hverb : isHidden "VERB" = false := by decide
  have hdirection : isHidden "DIRECTION" = false := by decide
  rw [actionRule, derives_either_iff, derives_branch_iff (by decide),
    derives_branch_iff (by decide)]
  simp only [derives_terminal_iff, mem_openingKinds_iff]
  constructor
  · rintro (⟨_, ⟨t, hkind, rfl, rfl⟩, rfl⟩ | ⟨_, ⟨t, hkind, rfl, rfl⟩, rfl⟩)
    · exact ⟨t, .inl hkind, rfl, by simp [openingForm, Token.trees, hkind, hverb]⟩
    · exact ⟨t, .inr hkind, rfl, by simp [openingForm, Token.trees, hkind, hdirection]⟩
  · rintro ⟨t, hkind | hkind, rfl, rfl⟩
    · exact .inl ⟨_, ⟨t, hkind, rfl, rfl⟩, by simp [openingForm, Token.trees, hkind, hverb]⟩
    · exact .inr ⟨_, ⟨t, hkind, rfl, rfl⟩, by simp [openingForm, Token.trees, hkind, hdirection]⟩

/-! ## Sentences -/

/-- The tokens of a sentence: the first one, those of the object, and those from the first connector
on. -/
structure IsCut (first : Token) (object later : List Token) : Prop where
  opens : first.kind ∈ openingKinds
  object_kinds : ∀ t ∈ object, t.kind ∈ objectKinds
  later_head : ∀ t ∈ later.head?, t.kind = "CONNECTOR"
  later_kinds : ∀ t ∈ later, t.kind ∈ wordKinds

/-- The trees of the parts of a sentence. -/
def sentenceTrees (first : Token) (object later : List Token) : List Tree :=
  .branch (openingForm first.kind) [.leaf first] ::
    (partTrees "object" object ++ partTrees "indirect" later)

theorem derives_body_iff : Derives commandGrammar.body ts trees ↔ ∃ first object later,
    ts = first :: (object ++ later) ∧ IsCut first object later ∧
      trees = sentenceTrees first object later := by
  simp only [commandGrammar, derives_andThen_iff, derives_action_iff, derives_object_iff,
    derives_indirect_iff]
  constructor
  · rintro ⟨_, _, _, _, ⟨first, hopens, rfl, rfl⟩,
      ⟨object, later, _, _, ⟨hobject, rfl⟩, ⟨hhead, hlater, rfl⟩, rfl, rfl⟩, rfl, rfl⟩
    exact ⟨first, object, later, rfl, ⟨hopens, hobject, hhead, hlater⟩, rfl⟩
  · rintro ⟨first, object, later, rfl, ⟨hopens, hobject, hhead, hlater⟩, rfl⟩
    exact ⟨_, _, _, _, ⟨first, hopens, rfl, rfl⟩,
      ⟨object, later, _, _, ⟨hobject, rfl⟩, ⟨hhead, hlater, rfl⟩, rfl, rfl⟩, rfl, rfl⟩

/-- Any words behind a first one that opens a sentence are an object and an indirect object. -/
theorem exists_cut {first : Token} (hopens : first.kind ∈ openingKinds)
    (hkinds : ∀ t ∈ ts, t.kind ∈ wordKinds) :
    ∃ object later, ts = object ++ later ∧ IsCut first object later := by
  have hobject : ∀ {us : List Token}, (∀ t ∈ us, t ∈ ts) → (∀ t ∈ us, t.kind ≠ "CONNECTOR") →
      ∀ t ∈ us, t.kind ∈ objectKinds := fun hsub hnone t ht =>
    ((mem_wordKinds_iff t.kind).mp (hkinds t (hsub t ht))).resolve_right (hnone t ht)
  rcases exists_first (fun t : Token => t.kind = "CONNECTOR") ts with
    hnone | ⟨object, c, later, hts, hnone, hc⟩
  · exact ⟨ts, [], (List.append_nil ts).symm, hopens, hobject (fun _ => id) hnone, by simp, by simp⟩
  · refine ⟨object, c :: later, hts, hopens, hobject (fun t ht => ?_) hnone, by simpa using hc,
      fun t ht => hkinds t ?_⟩
    · exact hts ▸ List.mem_append_left _ ht
    · exact hts ▸ List.mem_append_right _ ht

/-- No more words than are in the object stand before the connector. -/
theorem IsCut.eq_nil {first : Token} {object more later : List Token}
    (h : IsCut first object (more ++ later)) (h' : IsCut first (object ++ more) later) :
    more = [] := by
  cases more with
  | nil => rfl
  | cons t more =>
    have hkind := h'.object_kinds t (List.mem_append_right object List.mem_cons_self)
    rw [h.later_head t rfl] at hkind
    exact absurd hkind (by decide)

/-- Words are cut in one way only. -/
theorem IsCut.unique {first : Token} {object later object' later' : List Token}
    (h : IsCut first object later) (h' : IsCut first object' later')
    (heq : object ++ later = object' ++ later') : object = object' ∧ later = later' := by
  rcases List.append_eq_append_iff.mp heq with ⟨more, rfl, rfl⟩ | ⟨more, rfl, rfl⟩
  · simp [h.eq_nil h']
  · simp [h'.eq_nil h]

theorem exists_derives_body {first : Token} (hopens : first.kind ∈ openingKinds)
    (hkinds : ∀ t ∈ ts, t.kind ∈ wordKinds) :
    ∃ trees, Derives commandGrammar.body (first :: ts) trees := by
  obtain ⟨object, later, rfl, hcut⟩ := exists_cut hopens hkinds
  exact ⟨_, derives_body_iff.mpr ⟨first, object, later, rfl, hcut, rfl⟩⟩

/-! ## The tokens of trees -/

mutual

/-- A tree and the trees in it, each in front of what is in it. -/
def Tree.subtrees : Tree → List Tree
  | .leaf t => [.leaf t]
  | .branch form children => .branch form children :: Tree.subtreesOfAll children

/-- The trees in several trees, they themselves included. -/
def Tree.subtreesOfAll : List Tree → List Tree
  | [] => []
  | tree :: rest => tree.subtrees ++ Tree.subtreesOfAll rest

end

/-- The token of a leaf. -/
def Tree.leaf? : Tree → Option Token
  | .leaf t => some t
  | .branch .. => none

/-- The tokens of a tree in order. -/
def Tree.tokens (tree : Tree) : List Token := tree.subtrees.filterMap Tree.leaf?

/-- The tokens that are no articles. -/
def shownTokens (ts : List Token) : List Token := ts.filter fun t => t.text ∉ articles

theorem shownTokens_cons (t : Token) (ts : List Token) : shownTokens (t :: ts) =
    if t.text ∈ articles then shownTokens ts else t :: shownTokens ts := by
  simp [shownTokens, List.filter_cons]

theorem shownTokens_append (ts us : List Token) :
    shownTokens (ts ++ us) = shownTokens ts ++ shownTokens us := List.filter_append ..

/-- Each token is of the kind of its word. -/
def AreOfKind (ts : List Token) : Prop := ∀ t ∈ ts, t.kind = kindOf t.text

/-- Tokens are shown in trees if they are no articles. -/
theorem treesOf_eq (h : AreOfKind ts) : treesOf ts = (shownTokens ts).map .leaf := by
  induction ts with
  | nil => rfl
  | cons t ts ih =>
    obtain ⟨ht, hts⟩ := List.forall_mem_cons.mp h
    have hhidden := isHidden_kindOf_iff t.text
    rw [treesOf_cons, ih hts, Token.trees, ht, shownTokens_cons]
    by_cases hmem : t.text ∈ articles
    · simp [hmem, hhidden.mpr hmem]
    · simp [hmem, mt hhidden.mp hmem]

theorem subtreesOfAll_append (trees more : List Tree) : Tree.subtreesOfAll (trees ++ more) =
    Tree.subtreesOfAll trees ++ Tree.subtreesOfAll more := by
  induction trees with
  | nil => rfl
  | cons tree trees ih => simp [Tree.subtreesOfAll, ih]

theorem subtreesOfAll_leaves (ts : List Token) :
    Tree.subtreesOfAll (ts.map .leaf) = ts.map .leaf := by
  induction ts with
  | nil => rfl
  | cons t ts ih => simp [Tree.subtreesOfAll, Tree.subtrees, ih]

theorem filterMap_leaves (ts : List Token) : (ts.map Tree.leaf).filterMap Tree.leaf? = ts := by
  rw [List.filterMap_map]
  exact List.filterMap_some

theorem subtrees_partTrees (h : AreOfKind ts) (form : String) :
    Tree.subtreesOfAll (partTrees form ts) =
      partTrees form ts ++ (shownTokens ts).map .leaf := by
  rw [partTrees]
  split
  · next hnil =>
    rw [hnil]
    rfl
  · simp [Tree.subtreesOfAll, Tree.subtrees, treesOf_eq h, subtreesOfAll_leaves]

theorem mem_partTrees_iff {form : String} {tree : Tree} :
    tree ∈ partTrees form ts ↔ ts ≠ [] ∧ tree = .branch form (treesOf ts) := by
  rw [partTrees]
  split
  · next hnil => simp [hnil]
  · next hne => simp [hne]

theorem filterMap_partTrees (form : String) :
    (partTrees form ts).filterMap Tree.leaf? = [] := by
  rw [partTrees]
  split <;> rfl

/-! ## What is accepted -/

theorem accepts_separators (ts : List Token) : commandGrammar.Accepts ts "WS" :=
  .inl (List.mem_singleton_self "WS")

/-- A sentence opens with a verb or a direction. -/
theorem accepts_nil_iff (name : String) :
    commandGrammar.Accepts [] name ↔ name = "WS" ∨ name ∈ openingKinds := by
  refine or_congr List.mem_singleton ⟨?_, fun hname => ?_⟩
  · rintro ⟨t, us, trees, rfl, h⟩
    obtain ⟨first, object, later, hts, hcut, -⟩ := derives_body_iff.mp h
    obtain ⟨rfl, -⟩ := List.cons.inj hts
    exact hcut.opens
  · obtain ⟨trees, h⟩ := @exists_derives_body [] ⟨name, "", Place.first⟩ hname
      (List.forall_mem_nil _)
    exact ⟨_, _, trees, rfl, h⟩

/-- Behind the first word a sentence goes on with any words. -/
theorem accepts_later {first : Token} (hopens : first.kind ∈ openingKinds)
    (hkinds : ∀ t ∈ ts, t.kind ∈ wordKinds) {name : String} (hname : name ∈ wordKinds) :
    commandGrammar.Accepts (first :: ts) name := by
  have hmore : ∀ t ∈ ts ++ [⟨name, "", Place.first⟩], t.kind ∈ wordKinds :=
    List.forall_mem_append.mpr ⟨hkinds, List.forall_mem_singleton.mpr hname⟩
  obtain ⟨trees, h⟩ := exists_derives_body hopens hmore
  exact .inr ⟨_, [], trees, rfl, h⟩

end TextAdventure
