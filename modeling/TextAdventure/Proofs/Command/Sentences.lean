import TextAdventure.Proofs.Command.Trees

/-!
# Sentences of any text

What a text must be like to be a sentence, whatever its case and its white space are: its
first word opens a sentence, and nothing in it is foreign.  Later words are never in the
way.

The words of a sentence are those of the text, each where it stands (`AreWords`).  The
object lies between the first word and the next connector, and it is there for any word
between the two, even if it is an article.  What goes wrong is told for the place of the
first obstacle (`IsFirstObstacle`), which is a foreign character or the first word.

`Becomes` says what comes of a text under the grammar.  Behind the first word reading goes on to
the end or to a foreign character (`Reads.continues`), and in front of it there are only
separators (`Reads.becomes`).  `read_grammar` puts this together for every reader that follows
the grammar.
-/

namespace TextAdventure

open Text

/-! ## Words as tokens -/

/-- The token of a word, behind `before`. -/
def tokenAt (before word : List Char) : Token :=
  ⟨kindOf (String.ofList word), String.ofList word, Place.behind before⟩

theorem areOfKind_cons {before word : List Char} {ts : List Token} (h : AreOfKind ts) :
    AreOfKind (tokenAt before word :: ts) := List.forall_mem_cons.mpr ⟨rfl, h⟩

/-- The word opens a sentence. -/
def IsOpening (word : String) : Prop := word ∈ verbKeywords ∨ word ∈ directionKeywords

theorem kindOf_mem_openingKinds_iff (word : String) :
    kindOf word ∈ openingKinds ↔ IsOpening word := by
  obtain ⟨hverb, hdirection, -, -⟩ := kindOf_eq_iff word
  rw [mem_openingKinds_iff, hverb, hdirection, IsOpening]

/-- The first word of a sentence is picked as the keyword that it is. -/
theorem eq_kindOf_of_opens {name word : String} {accepts : String → Prop}
    (h : name = kindOf word ∨ name = "WORD" ∧ ¬ accepts (kindOf word))
    (hopens : name ∈ openingKinds) : name = kindOf word := by
  refine h.resolve_right ?_
  rintro ⟨rfl, -⟩
  exact absurd hopens (by decide)

theorem not_ignored_of_word {name word : String} {accepts : String → Prop}
    (h : name = kindOf word ∨ name = "WORD" ∧ ¬ accepts (kindOf word)) :
    name ∉ commandGrammar.ignored := by
  have hkinds : ∀ kind ∈ wordKinds, kind ∉ commandGrammar.ignored := by decide
  rcases h with rfl | ⟨rfl, -⟩
  · exact hkinds _ (kindOf_mem word)
  · decide

/-! ## Behind the first word -/

/-- What comes of a text behind tokens, the first of which opens a sentence. -/
inductive Continues (before : List Char) (ts : List Token) (rest : List Char) :
    Except SentenceError Tree → Prop where
  /-- All words are read. -/
  | sentence {us : List Token} {trees : List Tree} (noForeign : ∀ c ∈ rest, ¬ IsForeign c)
      (words : AreWords before rest (us.map Token.word)) (kinds : AreOfKind us)
      (texts : us.map Token.text = (splitWords isBlank rest).map String.ofList)
      (derives : Derives commandGrammar.body (ts ++ us) trees) :
      Continues before ts rest (.ok (.branch commandGrammar.start trees))
  /-- A foreign character cannot be read. -/
  | foreign {front after : List Char} {c : Char} (whole : rest = front ++ c :: after)
      (clean : ∀ d ∈ front, ¬ IsForeign d) (foreign : IsForeign c) :
      Continues before ts rest (.error (.unexpectedCharacter (Place.behind (before ++ front))))

section
variable {before used rest : List Char} {ts : List Token} {o : Except SentenceError Tree}

theorem continues_foreign_behind {front after : List Char} {c : Char}
    (hused : ∀ d ∈ used, ¬ IsForeign d) (whole : rest = front ++ c :: after)
    (clean : ∀ d ∈ front, ¬ IsForeign d) (foreign : IsForeign c) :
    Continues before ts (used ++ rest)
      (.error (.unexpectedCharacter (Place.behind (before ++ used ++ front)))) := by
  rw [whole, ← List.append_assoc, List.append_assoc before]
  exact .foreign rfl (List.forall_mem_append.mpr ⟨hused, clean⟩) foreign

theorem Continues.separators (h : Continues (before ++ used) ts rest o)
    (hused : ∀ c ∈ used, isSeparator c = true) : Continues before ts (used ++ rest) o := by
  have hblank : ∀ c ∈ used, isBlank c = true := fun c hc => isBlank_of_isSeparator (hused c hc)
  have hclean : ∀ c ∈ used, ¬ IsForeign c := fun c hc =>
    not_isForeign_of_isSeparator (hused c hc)
  cases h with
  | sentence noForeign words kinds texts derives =>
    refine .sentence (List.forall_mem_append.mpr ⟨hclean, noForeign⟩) (words.blanks hblank) kinds
      ?_ derives
    rw [texts, splitWords_separators hblank]
  | foreign whole clean foreign => exact continues_foreign_behind hclean whole clean foreign

theorem Continues.word (h : Continues (before ++ used) (ts ++ [tokenAt before used]) rest o)
    (hbefore : EndsApart before) (hused : IsWord isBlank used) (hrest : StartsApart isBlank rest) :
    Continues before ts (used ++ rest) o := by
  have hclean := not_isForeign_of_isWord hused
  cases h with
  | @sentence us trees noForeign words kinds texts derives =>
    rw [List.append_assoc, List.singleton_append] at derives
    have hwords : AreWords before (used ++ rest) ((tokenAt before used :: us).map Token.word) :=
      words.word hbefore hused hrest
    refine .sentence (List.forall_mem_append.mpr ⟨hclean, noForeign⟩) hwords
      (areOfKind_cons kinds) ?_ derives
    rw [splitWords_word hused hrest, List.map_cons, List.map_cons, texts]
    rfl
  | foreign whole clean foreign => exact continues_foreign_behind hclean whole clean foreign

end

theorem endsApart_separators {before used : List Char} (hne : used ≠ [])
    (hused : ∀ c ∈ used, isSeparator c = true) : EndsApart (before ++ used) := by
  intro c hc
  rw [List.getLast?_append, List.getLast?_eq_some_getLast hne, Option.some_or] at hc
  obtain rfl := Option.mem_some.mp hc
  exact isBlank_of_isSeparator (hused _ (List.getLast_mem hne))

/-- Behind a first word that opens a sentence, everything is read up to a foreign character.  The
induction is on reading. -/
theorem Reads.continues {before rest : List Char} {ts : List Token}
    {o : Except SentenceError Tree} (h : Reads commandGrammar before ts rest o) {first : Token}
    {later : List Token} (hts : ts = first :: later) (hopens : first.kind ∈ openingKinds)
    (hkinds : ∀ t ∈ later, t.kind ∈ wordKinds)
    (happart : EndsApart before ∨ StartsApart isBlank rest) : Continues before ts rest o := by
  have haccepts : ∀ name ∈ wordKinds, commandGrammar.Accepts ts name := fun name hname =>
    hts ▸ accepts_later hopens hkinds hname
  induction h generalizing later with
  | ignored picks ignores _ ih =>
    rcases picks.separators_or_word with ⟨-, hne, hused⟩ | ⟨-, -, hname⟩
    · exact (ih hts hkinds (.inl (endsApart_separators hne hused)) haccepts).separators hused
    · exact absurd ignores (not_ignored_of_word hname)
  | @token before used rest ts x o picks counts _ ih =>
    rcases picks.separators_or_word with ⟨hname, -, -⟩ | ⟨hused, hrest, hname⟩
    · exact absurd (hname ▸ List.mem_singleton_self "WS") counts
    · have hbefore := happart.resolve_right (hused.not_startsApart rest)
      have hkind : x.name = kindOf (String.ofList used) :=
        hname.resolve_right fun hplain => hplain.2 (haccepts _ (kindOf_mem _))
      rw [hkind] at ih
      have hmore : ∀ t ∈ later ++ [tokenAt before used], t.kind ∈ wordKinds :=
        List.forall_mem_append.mpr ⟨hkinds, List.forall_mem_singleton.mpr (kindOf_mem _)⟩
      refine (ih (by rw [hts]; rfl) hmore (.inr hrest) ?_).word hbefore hused hrest
      rw [hts]
      exact fun name hname => accepts_later hopens hmore hname
  | sentence derives =>
    exact .sentence (List.forall_mem_nil _) (.nil _) (List.forall_mem_nil _) rfl
      (by rwa [List.append_nil])
  | unfinished none =>
    obtain ⟨trees, hderives⟩ := exists_derives_body hopens hkinds
    exact absurd (hts ▸ hderives) (none trees)
  | @unexpectedToken before used rest ts x none picks =>
    -- Separators and words of every kind are accepted.
    rcases picks.separators_or_word with ⟨hname, -, -⟩ | ⟨-, -, hname⟩
    · exact absurd (hname ▸ accepts_separators ts) (none.not_accepts picks)
    · have hkind := hname.resolve_right fun hplain => hplain.2 trivial
      exact absurd (haccepts _ (hkind ▸ kindOf_mem _)) (none.not_accepts picks)
  | @unexpectedCharacter before rest c ts none =>
    rcases none.foreign_or_word trivial with hforeign | ⟨_, _, _, _, _, hnone⟩
    · have hcontinues := @Continues.foreign before ts (c :: rest) [] rest c
        (List.nil_append (c :: rest)).symm (List.forall_mem_nil _) hforeign
      rwa [List.append_nil] at hcontinues
    · exact absurd trivial hnone

/-! ## First words and obstacles -/

/-- The first word of the text. -/
structure IsFirstWord (text lead word after : List Char) : Prop extends
    IsWordIn text lead word after where
  lead_blank : ∀ c ∈ lead, isBlank c = true

theorem isFirstWord_of_separators {lead word after : List Char}
    (hlead : ∀ c ∈ lead, isSeparator c = true) (hword : IsWord isBlank word)
    (hafter : StartsApart isBlank after) :
    IsFirstWord (lead ++ (word ++ after)) lead word after := by
  have hblank : ∀ c ∈ lead, isBlank c = true := fun c hc => isBlank_of_isSeparator (hlead c hc)
  exact ⟨⟨rfl, hword, fun c hc => hblank c (List.mem_of_getLast? hc), hafter⟩, hblank⟩

theorem IsFirstWord.unique {text lead word after lead' word' after' : List Char}
    (h : IsFirstWord text lead word after) (h' : IsFirstWord text lead' word' after') :
    word = word' := by
  have hwords := splitWords_separators h.lead_blank (word ++ after)
  rw [← h.whole, h'.whole, splitWords_separators h'.lead_blank,
    splitWords_word h'.isWord h'.apart_after, splitWords_word h.isWord h.apart_after] at hwords
  exact (List.cons.inj hwords).1.symm

/-- What makes a text no sentence, behind `before`. -/
inductive Obstacle (text before : List Char) : SentenceError → Prop where
  /-- The first word opens no sentence. -/
  | word {word after : List Char} (first : IsFirstWord text before word after)
      (opensNone : ¬ IsOpening (String.ofList word)) :
      Obstacle text before (.unexpectedToken (tokenAt before word))
  /-- A character is foreign. -/
  | character {c : Char} {after : List Char} (whole : text = before ++ c :: after)
      (foreign : IsForeign c) :
      Obstacle text before (.unexpectedCharacter (Place.behind before))

/-- There is no obstacle further in front. -/
structure IsFirstObstacle (text before : List Char) (e : SentenceError) : Prop where
  obstacle : Obstacle text before e
  length_le : ∀ before' e', Obstacle text before' e' → before.length ≤ before'.length

theorem Obstacle.place_eq {text : List Char} {e : SentenceError} (h : Obstacle text before e) :
    e.place = Place.behind before := by
  cases h with
  | word _ _ => rfl
  | character _ _ => rfl

theorem Obstacle.exists_not_isSeparator {text : List Char} {e : SentenceError}
    (h : Obstacle text before e) : ∃ c cs, text = before ++ c :: cs ∧ isSeparator c = false := by
  cases h with
  | word first _ =>
    obtain ⟨c, cs, hwhole, hc⟩ := first.exists_letter
    exact ⟨c, cs, hwhole, isSeparator_of_letter hc⟩
  | character whole foreign => exact ⟨_, _, whole, foreign.2⟩

/-- An obstacle right behind the separators is the first one. -/
theorem Obstacle.isFirstObstacle {lead : List Char} {e : SentenceError}
    (h : Obstacle (lead ++ rest) lead e) (hlead : ∀ c ∈ lead, isSeparator c = true) :
    IsFirstObstacle (lead ++ rest) lead e where
  obstacle := h
  length_le := by
    intro before' e' h'
    obtain ⟨c, cs, hwhole, hc⟩ := h'.exists_not_isSeparator
    obtain ⟨middle, rfl, -⟩ := exists_append_of_not_mem hwhole fun hmem => by
      rw [hlead c hmem] at hc
      cases hc
    rw [List.length_append]
    exact Nat.le_add_right ..

/-- The first foreign character behind a word that opens a sentence is the first obstacle. -/
theorem IsFirstWord.isFirstObstacle {text lead word after front : List Char} {c : Char}
    (h : IsFirstWord text lead word after) (hopens : IsOpening (String.ofList word))
    (hwhole : text = front ++ c :: rest) (hfront : ∀ d ∈ front, ¬ IsForeign d)
    (hc : IsForeign c) :
    IsFirstObstacle text front (.unexpectedCharacter (Place.behind front)) where
  obstacle := .character hwhole hc
  length_le := by
    intro before' e' h'
    cases h' with
    | word first opensNone => exact absurd (first.unique h ▸ hopens) opensNone
    | character whole foreign =>
      rw [hwhole] at whole
      obtain ⟨middle, rfl, -⟩ := exists_append_of_not_mem whole
        fun hmem => hfront _ hmem foreign
      rw [List.length_append]
      exact Nat.le_add_right ..

/-! ## What becomes of a text -/

/-- What becomes of a text. -/
inductive Becomes (text : List Char) : Except SentenceError Tree → Prop where
  | nothing (separates : ∀ c ∈ text, isSeparator c = true) :
      Becomes text (.error (.unexpectedToken (endToken none)))
  | refused {before : List Char} {e : SentenceError} (first : IsFirstObstacle text before e) :
      Becomes text (.error e)
  | sentence {lead word after : List Char} {ts : List Token} {trees : List Tree}
      (first : IsFirstWord text lead word after) (opens : IsOpening (String.ofList word))
      (noForeign : ∀ c ∈ text, ¬ IsForeign c)
      (words : AreWords [] text ((tokenAt lead word :: ts).map Token.word))
      (kinds : AreOfKind (tokenAt lead word :: ts))
      (texts : (tokenAt lead word :: ts).map Token.text =
        (splitWords isBlank text).map String.ofList)
      (derives : Derives commandGrammar.body (tokenAt lead word :: ts) trees) :
      Becomes text (.ok (.branch commandGrammar.start trees))

/-- What is read behind a first word that opens a sentence. -/
theorem IsFirstWord.becomes {text lead word after : List Char} {o : Except SentenceError Tree}
    (h : IsFirstWord text lead word after) (hlead : ∀ c ∈ lead, isSeparator c = true)
    (hopens : IsOpening (String.ofList word))
    (htail : Continues (lead ++ word) [tokenAt lead word] after o) : Becomes text o := by
  have hclean : ∀ c ∈ lead ++ word, ¬ IsForeign c := List.forall_mem_append.mpr
    ⟨fun c hc => not_isForeign_of_isSeparator (hlead c hc), not_isForeign_of_isWord h.isWord⟩
  have hwhole := h.whole
  rw [← List.append_assoc] at hwhole
  cases htail with
  | @sentence ts trees noForeign words kinds texts derives =>
    have hwords : AreWords [] (lead ++ (word ++ after)) _ :=
      .blanks (words.word h.apart_before h.isWord h.apart_after) h.lead_blank
    rw [← h.whole] at hwords
    refine .sentence h hopens ?_ hwords (areOfKind_cons kinds) ?_ derives
    · rw [hwhole]
      exact List.forall_mem_append.mpr ⟨hclean, noForeign⟩
    · rw [h.whole, splitWords_separators h.lead_blank, splitWords_word h.isWord h.apart_after,
        List.map_cons, List.map_cons, texts]
      rfl
  | foreign hafter clean foreign =>
    rw [hafter, ← List.append_assoc] at hwhole
    exact .refused (h.isFirstObstacle hopens hwhole
      (List.forall_mem_append.mpr ⟨hclean, clean⟩) foreign)

/-- In front of the first word there are only separators.  The induction is on reading. -/
theorem Reads.becomes {before rest : List Char} {ts : List Token} {o : Except SentenceError Tree}
    (h : Reads commandGrammar before ts rest o) (hts : ts = [])
    (hbefore : ∀ c ∈ before, isSeparator c = true) : Becomes (before ++ rest) o := by
  induction h with
  | ignored picks ignores _ ih =>
    rcases picks.separators_or_word with ⟨-, -, hused⟩ | ⟨-, -, hname⟩
    · rw [← List.append_assoc]
      exact ih hts (List.forall_mem_append.mpr ⟨hbefore, hused⟩)
    · exact absurd ignores (not_ignored_of_word hname)
  | @token before used rest ts x o picks counts tail _ =>
    rcases picks.separators_or_word with ⟨hname, -, -⟩ | ⟨hused, hrest, hname⟩
    · exact absurd (hname ▸ List.mem_singleton_self "WS") counts
    · have haccepted := picks.accepted
      rw [hts, accepts_nil_iff] at haccepted
      have hopens := haccepted.resolve_left fun hws =>
        counts (hws ▸ List.mem_singleton_self "WS")
      have hkind := eq_kindOf_of_opens hname hopens
      rw [hkind] at hopens tail
      rw [hts] at tail
      refine (isFirstWord_of_separators hbefore hused hrest).becomes hbefore
        ((kindOf_mem_openingKinds_iff _).mp hopens) ?_
      exact tail.continues rfl hopens (List.forall_mem_nil _) (.inr hrest)
  | sentence derives =>
    obtain ⟨first, object, later, hnil, -, -⟩ := derives_body_iff.mp (hts ▸ derives)
    cases hnil
  | unfinished none =>
    rw [hts, List.append_nil]
    exact .nothing hbefore
  | @unexpectedToken before used rest ts x none picks =>
    rcases picks.separators_or_word with ⟨hname, -, -⟩ | ⟨hused, hrest, hname⟩
    · exact absurd (hname ▸ accepts_separators ts) (none.not_accepts picks)
    · have hkind := hname.resolve_right fun hplain => hplain.2 trivial
      have hopens : ¬ IsOpening (String.ofList used) := by
        rw [← kindOf_mem_openingKinds_iff, ← hkind]
        exact fun hopens => none.not_accepts picks (hts ▸ (accepts_nil_iff _).mpr (.inr hopens))
      rw [hkind]
      exact .refused (Obstacle.isFirstObstacle
        (.word (isFirstWord_of_separators hbefore hused hrest) hopens) hbefore)
  | unexpectedCharacter none =>
    rcases none.foreign_or_word trivial with hforeign | ⟨_, _, _, _, _, hnone⟩
    · exact .refused (Obstacle.isFirstObstacle (.character rfl hforeign) hbefore)
    · exact absurd trivial hnone

theorem FollowsGrammar.becomes {read : SentenceReader} (h : FollowsGrammar commandGrammar read)
    (text : String) : Becomes text.toList (read text) :=
  (h text).becomes rfl (List.forall_mem_nil _)

theorem Becomes.exists_ok_iff {text : List Char} {outcome : Except SentenceError Tree}
    (h : Becomes text outcome) : (∃ tree, outcome = .ok tree) ↔
      (∃ lead word after, IsFirstWord text lead word after ∧ IsOpening (String.ofList word)) ∧
        ∀ c ∈ text, ¬ IsForeign c := by
  cases h with
  | nothing separates =>
    refine iff_of_false (by simp) ?_
    intro ⟨⟨lead, word, after, hfirst, _⟩, _⟩
    exact hfirst.not_forall_isSeparator separates
  | refused first =>
    refine iff_of_false (by simp) ?_
    intro ⟨⟨lead, word, after, hfirst, hopens⟩, hnone⟩
    cases first.obstacle with
    | word hword opensNone => exact opensNone (hword.unique hfirst ▸ hopens)
    | character whole foreign =>
      rw [whole] at hnone
      exact hnone _ (List.mem_append_right _ (List.mem_cons_self ..)) foreign
  | sentence first opens noForeign _ _ _ _ =>
    exact iff_of_true ⟨_, rfl⟩ ⟨⟨_, _, _, first, opens⟩, noForeign⟩

/-- Unless only separators are there, an error is about the first obstacle. -/
theorem Becomes.exists_isFirstObstacle {text : List Char} {e : SentenceError}
    (h : Becomes text (.error e)) (hsome : (∃ front word after, IsWordIn text front word after) ∨
      ∃ c ∈ text, IsForeign c) :
    ∃ front, IsFirstObstacle text front e ∧ e.place = Place.behind front := by
  cases h with
  | nothing separates =>
    rcases hsome with ⟨front, word, after, hword⟩ | ⟨c, hmem, hforeign⟩
    · exact absurd separates hword.not_forall_isSeparator
    · exact absurd hforeign (not_isForeign_of_isSeparator (separates c hmem))
  | refused first => exact ⟨_, first, first.obstacle.place_eq⟩

/-! ## The parts of a sentence -/

/-- The word is a connector. -/
def IsConnector (word : String) : Prop := word ∈ connectorKeywords

theorem kind_connector_iff {t : Token} (h : t.kind = kindOf t.text) :
    t.kind = "CONNECTOR" ↔ IsConnector t.text := by
  obtain ⟨-, -, hconnector, -⟩ := kindOf_eq_iff t.text
  rw [h, hconnector, IsConnector]

/-- The tree has the words of a sentence: the first one, those of the object, and those from the
first connector on. -/
structure IsMadeOf (tree : Tree) (first : Token) (object later : List Token) : Prop where
  object_connects : ∀ t ∈ object, ¬ IsConnector t.text
  later_connects : ∀ t ∈ later.head?, IsConnector t.text
  tokens_eq : tree.tokens = first :: shownTokens (object ++ later)
  object_iff : (∃ children, .branch "object" children ∈ tree.subtrees) ↔ object ≠ []
  indirect_iff : (∃ children, .branch "indirect" children ∈ tree.subtrees) ↔ later ≠ []
  indirect_head : ∀ children, .branch "indirect" children ∈ tree.subtrees →
    children.head? = later.head?.map .leaf

section
variable {first : Token} {object later : List Token}

/-- Where tokens are cut is told by their words. -/
theorem isCut_iff (hkinds : AreOfKind (first :: (object ++ later))) : IsCut first object later ↔
    IsOpening first.text ∧ (∀ t ∈ object, ¬ IsConnector t.text) ∧
      ∀ t ∈ later.head?, IsConnector t.text := by
  obtain ⟨hfirst, hrest⟩ := List.forall_mem_cons.mp hkinds
  obtain ⟨hobject, hlater⟩ := List.forall_mem_append.mp hrest
  have hopens : first.kind ∈ openingKinds ↔ IsOpening first.text := by
    rw [hfirst, kindOf_mem_openingKinds_iff]
  have hhead : ∀ t ∈ later.head?, t.kind = "CONNECTOR" ↔ IsConnector t.text := fun t ht =>
    kind_connector_iff (hlater t (List.mem_of_head? ht))
  have hnone : ∀ t ∈ object, t.kind ∈ objectKinds ↔ ¬ IsConnector t.text := by
    intro t ht
    have hmem := (mem_wordKinds_iff t.kind).mp (hobject t ht ▸ kindOf_mem t.text)
    have happart : "CONNECTOR" ∉ objectKinds := by decide
    rw [← kind_connector_iff (hobject t ht)]
    exact ⟨fun h hkind => happart (hkind ▸ h), hmem.resolve_right⟩
  constructor
  · intro h
    exact ⟨hopens.mp h.opens, fun t ht => (hnone t ht).mp (h.object_kinds t ht),
      fun t ht => (hhead t ht).mp (h.later_head t ht)⟩
  · rintro ⟨h, hconnects, hconnector⟩
    exact ⟨hopens.mpr h, fun t ht => (hnone t ht).mpr (hconnects t ht),
      fun t ht => (hhead t ht).mpr (hconnector t ht),
      fun t ht => hlater t ht ▸ kindOf_mem t.text⟩

theorem subtrees_sentence (hkinds : AreOfKind (first :: (object ++ later))) :
    (Tree.branch "start" (sentenceTrees first object later)).subtrees =
      [.branch "start" (sentenceTrees first object later),
        .branch (openingForm first.kind) [.leaf first], .leaf first] ++
        (partTrees "object" object ++ (shownTokens object).map .leaf) ++
          (partTrees "indirect" later ++ (shownTokens later).map .leaf) := by
  obtain ⟨-, hrest⟩ := List.forall_mem_cons.mp hkinds
  obtain ⟨hobject, hlater⟩ := List.forall_mem_append.mp hrest
  rw [Tree.subtrees, sentenceTrees, Tree.subtreesOfAll, subtreesOfAll_append,
    subtrees_partTrees hobject, subtrees_partTrees hlater]
  simp [Tree.subtrees, Tree.subtreesOfAll]

theorem IsCut.isMadeOf (h : IsCut first object later)
    (hkinds : AreOfKind (first :: (object ++ later))) :
    IsMadeOf (.branch "start" (sentenceTrees first object later)) first object later := by
  obtain ⟨-, hobject, hlater⟩ := (isCut_iff hkinds).mp h
  have hforms : openingForm first.kind ≠ "object" ∧ openingForm first.kind ≠ "indirect" := by
    unfold openingForm
    split <;> decide
  have hmem : ∀ form children, Tree.branch form children ∈
      (Tree.branch "start" (sentenceTrees first object later)).subtrees ↔
        (form = "start" ∧ children = sentenceTrees first object later) ∨
        (form = openingForm first.kind ∧ children = [.leaf first]) ∨
        (object ≠ [] ∧ form = "object" ∧ children = treesOf object) ∨
        (later ≠ [] ∧ form = "indirect" ∧ children = treesOf later) := by
    intro form children
    simp [subtrees_sentence hkinds, mem_partTrees_iff]
  have hindirect : ∀ children, Tree.branch "indirect" children ∈
      (Tree.branch "start" (sentenceTrees first object later)).subtrees ↔
        later ≠ [] ∧ children = treesOf later := by
    intro children
    simp [hmem, hforms.2.symm]
  refine ⟨hobject, hlater, ?_, ?_, ?_, ?_⟩
  · rw [Tree.tokens, subtrees_sentence hkinds, shownTokens_append]
    simp only [List.filterMap_append, filterMap_partTrees, filterMap_leaves, List.nil_append]
    rfl
  · simp [hmem, hforms.1.symm]
  · simp [hindirect]
  · intro children hchildren
    obtain ⟨hne, rfl⟩ := (hindirect children).mp hchildren
    obtain ⟨c, later, rfl⟩ := List.exists_cons_of_ne_nil hne
    rw [treesOf_connector (h.later_head c rfl)]
    rfl

end

/-! ## The grammar of sentences -/

/-- A text is a sentence if and only if its first word is a verb or a direction and nothing in it is
foreign.  The words of a sentence are then those of the text, each where it stands.  What is no
sentence is refused for its first obstacle. -/
theorem read_grammar {read : SentenceReader} (hread : FollowsGrammar commandGrammar read)
    (text : String) :
    ((∃ tree, read text = .ok tree) ↔
      (∃ lead word after, IsFirstWord text.toList lead word after ∧
        IsOpening (String.ofList word)) ∧ ∀ c ∈ text.toList, ¬ IsForeign c) ∧
    (∀ tree, read text = .ok tree → ∃ first object later,
      AreWords [] text.toList ((first :: (object ++ later)).map Token.word) ∧
        IsMadeOf tree first object later) ∧
    (∀ e, read text = .error e →
      (∃ before word after, IsWordIn text.toList before word after) ∨
        (∃ c ∈ text.toList, IsForeign c) →
      ∃ before, IsFirstObstacle text.toList before e ∧ e.place = Place.behind before) := by
  have hbecomes := hread.becomes text
  refine ⟨hbecomes.exists_ok_iff, ?_, ?_⟩
  · intro tree htree
    rw [htree] at hbecomes
    cases hbecomes with
    | sentence _ _ _ words kinds _ derives =>
      obtain ⟨first, object, later, hts, hcut, rfl⟩ := derives_body_iff.mp derives
      rw [hts] at words kinds
      exact ⟨first, object, later, words, hcut.isMadeOf kinds⟩
  · intro e he
    rw [he] at hbecomes
    exact hbecomes.exists_isFirstObstacle

/-- A second line is counted in both texts, and an article alone is an object. -/
theorem read_grammar_coin :
    FollowsGrammar commandGrammar commandGrammar.read ∧
    (∃ tree, commandGrammar.read "put the\n into a coin in" = .ok tree ∧
      ∃ first object later,
        AreWords [] "put the\n into a coin in".toList
          ((first :: (object ++ later)).map Token.word) ∧
        IsMadeOf tree first object later) ∧
    commandGrammar.read "go\n\x0bx" = .error (.unexpectedCharacter ⟨2, 1⟩) ∧
    ∃ before, IsFirstObstacle "go\n\x0bx".toList before (.unexpectedCharacter ⟨2, 1⟩) ∧
      (⟨2, 1⟩ : Place) = Place.behind before := by
  have hread := commandGrammar.read_followsGrammar
  obtain ⟨-, hmade, -⟩ := read_grammar hread "put the\n into a coin in"
  obtain ⟨-, -, hrefused⟩ := read_grammar hread "go\n\x0bx"
  have herror : commandGrammar.read "go\n\x0bx" = .error (.unexpectedCharacter ⟨2, 1⟩) := by
    rfl
  have hforeign : IsForeign '\x0b' := ⟨by decide, by decide⟩
  exact ⟨hread, ⟨_, rfl, hmade _ rfl⟩, herror, hrefused _ herror (.inr ⟨_, by decide, hforeign⟩)⟩

end TextAdventure
