import TextAdventure.Command.Parse
import TextAdventure.Proofs.Command.Keywords
import TextAdventure.Proofs.Command.Sentences

/-!
# The meaning of commands

`Means words outcome` is the rule for commands in terms of words: the first word is a
verb or a direction, the object ends before the first connector, and everything behind
that connector belongs to the second object, later connectors included.  Articles are
left out of both.

Parsing a text follows this rule for the words of the text in lower case, if sentences are
read by a reader that follows the grammar (`command_meaning`).  The trees that come of the
grammar have no faults: each branch is of a known form, and each word that is looked up is
a keyword (`Opens.ofTree`).  Reading the sentence that is made of those words can only fail
at its first word, so a later word never makes a command unreadable (`read_unwords_iff`).
-/

namespace TextAdventure

open Text

/-! ## The rule -/

/-- The words that are no articles. -/
def withoutArticles (ws : List String) : List String := ws.filter fun word => word ∉ articles

/-- The action that a first word stands for, and the words that it puts in front of the object. -/
inductive Opens : String → Verb → List String → Prop where
  | verb {word : String} {v : Verb} (h : verbWords.lookup word = some v) : Opens word v []
  | direction {word : String} {d : Direction} (h : directionWords.lookup word = some d) :
      Opens word .move [word]

/-- What becomes of the words of a command. -/
inductive Means : List String → Except CommandError Command → Prop where
  | nothing : Means [] (.error .commandExpected)
  | noVerb {first : String} {rest : List String} (verb : verbWords.lookup first = none)
      (direction : directionWords.lookup first = none) :
      Means (first :: rest) (.error .notVerb)
  | simple {first : String} {action : Verb} {before object : List String}
      (opens : Opens first action before)
      (noConnector : ∀ word ∈ object, connectorWords.lookup word = none) :
      Means (first :: object) (.ok ⟨action, nameOf (before ++ withoutArticles object), none⟩)
  | dangling {first word : String} {action : Verb} {before object second : List String}
      {connector : Connector} (opens : Opens first action before)
      (noConnector : ∀ word ∈ object, connectorWords.lookup word = none)
      (connects : connectorWords.lookup word = some connector)
      (nameless : withoutArticles second = []) :
      Means (first :: (object ++ word :: second)) (.error .indirectObjectRequired)
  | connected {first word : String} {action : Verb} {before object second : List String}
      {connector : Connector} (opens : Opens first action before)
      (noConnector : ∀ word ∈ object, connectorWords.lookup word = none)
      (connects : connectorWords.lookup word = some connector)
      (named : withoutArticles second ≠ []) :
      Means (first :: (object ++ word :: second))
        (.ok ⟨action, nameOf (before ++ withoutArticles object),
          some (connector, withoutArticles second)⟩)

/-- Every first word opens a command or is neither a verb nor a direction. -/
theorem opens_or_not (word : String) : (∃ action before, Opens word action before) ∨
    (verbWords.lookup word = none ∧ directionWords.lookup word = none) := by
  cases hverb : verbWords.lookup word with
  | some v => exact .inl ⟨v, [], .verb hverb⟩
  | none =>
    cases hdirection : directionWords.lookup word with
    | some d => exact .inl ⟨.move, [word], .direction hdirection⟩
    | none => exact .inr ⟨rfl, rfl⟩

theorem not_opens {word : String} (hverb : verbWords.lookup word = none)
    (hdirection : directionWords.lookup word = none) (action : Verb) (before : List String) :
    ¬ Opens word action before := by
  intro hopens
  cases hopens with
  | verb h => rw [hverb] at h; cases h
  | direction h => rw [hdirection] at h; cases h

theorem exists_first_connector (ws : List String) :
    (∀ word ∈ ws, connectorWords.lookup word = none) ∨
      ∃ object word connector second, ws = object ++ word :: second ∧
        (∀ word ∈ object, connectorWords.lookup word = none) ∧
        connectorWords.lookup word = some connector := by
  rcases exists_first (fun word => ∃ connector, connectorWords.lookup word = some connector) ws with
    hnone | ⟨object, word, second, rfl, hobject, connector, hconnector⟩
  · exact .inl fun word hword => Option.eq_none_iff_forall_ne_some.mpr fun connector h =>
      hnone word hword ⟨connector, h⟩
  · exact .inr ⟨object, word, connector, second, rfl, fun word hword =>
      Option.eq_none_iff_forall_ne_some.mpr fun connector h => hobject word hword ⟨connector, h⟩,
      hconnector⟩

/-- The rule says something about all words. -/
theorem Means.total (ws : List String) : ∃ outcome, Means ws outcome := by
  cases ws with
  | nil => exact ⟨_, .nothing⟩
  | cons first rest =>
    rcases opens_or_not first with ⟨action, before, hopens⟩ | ⟨hverb, hdirection⟩
    · rcases exists_first_connector rest with
        hnone | ⟨object, word, connector, second, rfl, hobject, hconnector⟩
      · exact ⟨_, .simple hopens hnone⟩
      · by_cases hnamed : withoutArticles second = []
        · exact ⟨_, .dangling hopens hobject hconnector hnamed⟩
        · exact ⟨_, .connected hopens hobject hconnector hnamed⟩
    · exact ⟨_, .noVerb hverb hdirection⟩

/-- Only the first word makes a command that is missing or has no verb. -/
theorem Means.refused_iff {ws : List String} {outcome : Except CommandError Command}
    (h : Means ws outcome) : (outcome = .error .commandExpected ∨ outcome = .error .notVerb) ↔
      ¬ ∃ first rest action before, ws = first :: rest ∧ Opens first action before := by
  cases h with
  | nothing => simp
  | noVerb hverb hdirection =>
    simp only [or_true, true_iff]
    rintro ⟨_, _, action, before, hws, hopens⟩
    cases hws
    exact not_opens hverb hdirection action before hopens
  | simple hopens _ => simpa using ⟨_, _, hopens⟩
  | dangling hopens _ _ _ => simpa using ⟨_, _, hopens⟩
  | connected hopens _ _ _ => simpa using ⟨_, _, hopens⟩

/-- A first word opens a command if and only if it opens a sentence. -/
theorem isOpening_iff {word : String} :
    IsOpening word ↔ ∃ action before, Opens word action before := by
  rw [IsOpening, mem_verbKeywords_iff, mem_directionKeywords_iff]
  constructor
  · rintro (⟨v, h⟩ | ⟨d, h⟩)
    · exact ⟨v, [], .verb h⟩
    · exact ⟨.move, [word], .direction h⟩
  · rintro ⟨action, before, h⟩
    cases h with
    | verb h => exact .inl ⟨_, h⟩
    | direction h => exact .inr ⟨_, h⟩

/-! ## What trees tell -/

theorem map_text_shownTokens (ts : List Token) :
    (shownTokens ts).map Token.text = withoutArticles (ts.map Token.text) := by
  rw [shownTokens, withoutArticles, List.filter_map]
  rfl

theorem wordsOf_leaves (ts : List Token) : wordsOf (ts.map .leaf) = .ok (ts.map Token.text) := by
  induction ts with
  | nil => rfl
  | cons t ts ih =>
    rw [List.map_cons, wordsOf, ih]
    rfl

theorem wordsOf_treesOf {ts : List Token} (h : AreOfKind ts) :
    wordsOf (treesOf ts) = .ok (withoutArticles (ts.map Token.text)) := by
  rw [treesOf_eq h, wordsOf_leaves, map_text_shownTokens]

theorem firstMeaning_leaf {β : Type} {entries : List (String × β)} {t : Token} {b : β}
    (h : entries.lookup t.text = some b) (rest : List Tree) :
    firstMeaning entries (.leaf t :: rest) = .ok b := by
  simp only [firstMeaning, Tree.token, bind, Except.bind, h]

/-- The opening of a sentence tells what its word stands for. -/
theorem Opens.add {t : Token} {action : Verb} {before : List String}
    (h : Opens t.text action before) (hkind : t.kind = kindOf t.text) :
    CommandParts.empty.add (.branch (openingForm t.kind) [.leaf t]) =
      .ok ⟨some action, before, none⟩ := by
  obtain ⟨hverb, hdirection, -, -⟩ := kindOf_eq_iff t.text
  cases h with
  | verb h =>
    have hform : openingForm t.kind = "verb" := if_pos (by
      rw [hkind, hverb]
      exact mem_verbKeywords_iff.mpr ⟨_, h⟩)
    rw [hform, CommandParts.add, if_pos rfl, firstMeaning_leaf h]
    rfl
  | @direction d h =>
    have hform : openingForm t.kind = "direction" := if_neg (by
      rw [hkind, hdirection.mpr (mem_directionKeywords_iff.mpr ⟨_, h⟩)]
      decide)
    rw [hform, CommandParts.add, if_neg (by decide), if_pos rfl, firstMeaning_leaf h,
      ← word_of_lookup_direction h]
    rfl

/-- The object adds its words. -/
theorem add_object {ts : List Token} (h : AreOfKind ts) (parts : CommandParts) :
    (partTrees "object" ts).foldlM CommandParts.add parts =
      .ok { parts with direct := parts.direct ++ withoutArticles (ts.map Token.text) } := by
  rw [partTrees]
  split
  · next hnil =>
    rw [hnil, List.map_nil, withoutArticles, List.filter_nil, List.append_nil]
    rfl
  · rw [List.foldlM_cons, CommandParts.add, if_neg (by decide), if_neg (by decide), if_pos rfl,
      wordsOf_treesOf h]
    rfl

/-- The indirect object adds its connector and its words, and it needs words. -/
theorem add_indirect {c : Token} {ts : List Token} {connector : Connector}
    (h : AreOfKind (c :: ts)) (hc : connectorWords.lookup c.text = some connector)
    (parts : CommandParts) : (partTrees "indirect" (c :: ts)).foldlM CommandParts.add parts =
      if withoutArticles (ts.map Token.text) = [] then .error (.refused .indirectObjectRequired)
      else
        .ok { parts with indirect := some (connector, withoutArticles (ts.map Token.text)) } := by
  obtain ⟨hkind, hts⟩ := List.forall_mem_cons.mp h
  have hconnector : c.kind = "CONNECTOR" :=
    (kind_connector_iff hkind).mpr (mem_connectorKeywords_iff.mpr ⟨_, hc⟩)
  rw [partTrees, if_neg (List.cons_ne_nil c ts), List.foldlM_cons, CommandParts.add,
    if_neg (by decide), if_neg (by decide), if_neg (by decide), if_pos rfl,
    treesOf_connector hconnector, firstMeaning_leaf hc, List.tail_cons, wordsOf_treesOf hts]
  change (if withoutArticles (ts.map Token.text) = [] then _ else _) >>= _ = _
  split <;> rfl

/-- What a sentence means is told by its opening, its object and its indirect object. -/
theorem Opens.ofTree {first : Token} {object later : List Token} {action : Verb}
    {before : List String} (h : Opens first.text action before)
    (hkinds : AreOfKind (first :: (object ++ later))) :
    Command.ofTree (.branch "start" (sentenceTrees first object later)) =
      (partTrees "indirect" later).foldlM CommandParts.add
          ⟨some action, before ++ withoutArticles (object.map Token.text), none⟩ >>=
        CommandParts.command := by
  obtain ⟨hfirst, hrest⟩ := List.forall_mem_cons.mp hkinds
  obtain ⟨hobject, -⟩ := List.forall_mem_append.mp hrest
  rw [Command.ofTree, sentenceTrees, List.foldlM_cons, h.add hfirst]
  change (List.foldlM CommandParts.add _ (partTrees "object" object ++ _)) >>= _ = _
  rw [List.foldlM_append, add_object hobject]
  rfl

/-! ## Reading the words -/

theorem isWord_of_mem_words {text word : String} (h : word ∈ words text) :
    IsWord isBlank word.toList := by
  obtain ⟨letters, hletters, rfl⟩ := List.mem_map.mp h
  rw [String.toList_ofList]
  exact isWord_of_mem_splitWords hletters

/-- A sentence that is made of words has no foreign characters. -/
theorem not_isForeign_unwords {ws : List String} (h : ∀ word ∈ ws, IsWord isBlank word.toList) :
    ∀ c ∈ (unwords ws).toList, ¬ IsForeign c := by
  intro c hc
  rw [unwords, String.toList_ofList] at hc
  rcases eq_or_mem_of_mem_joinWith hc with rfl | ⟨letters, hletters, hcl⟩
  · exact not_isForeign_of_isSeparator (by decide)
  · obtain ⟨word, hword, rfl⟩ := List.mem_map.mp hletters
    exact not_isForeign_of_isWord (h word hword) c hcl

/-- The first of some words is the first word of their sentence. -/
theorem exists_isFirstWord_unwords {first : String} (h : IsWord isBlank first.toList)
    (rest : List String) :
    ∃ after, IsFirstWord (unwords (first :: rest)).toList [] first.toList after := by
  have hspace : isBlank ' ' = true := by decide
  have hfirst : ∀ {after : List Char}, StartsApart isBlank after →
      IsFirstWord (first.toList ++ after) [] first.toList after := fun hafter =>
    isFirstWord_of_separators (List.forall_mem_nil _) h hafter
  rw [unwords, String.toList_ofList]
  cases rest with
  | nil =>
    refine ⟨[], ?_⟩
    have hwhole := hfirst startsApart_nil
    rwa [List.append_nil] at hwhole
  | cons second rest => exact ⟨_, hfirst ((startsApart_cons ..).mpr hspace)⟩

section
variable {read : SentenceReader} (hread : FollowsGrammar commandGrammar read)

include hread

/-- Words are read as a sentence if and only if the first of them opens one. -/
theorem read_unwords_iff {ws : List String} (h : ∀ word ∈ ws, IsWord isBlank word.toList) :
    (∃ tree, read (unwords ws) = .ok tree) ↔
      ∃ first rest action before, ws = first :: rest ∧ Opens first action before := by
  rw [(hread.becomes (unwords ws)).exists_ok_iff,
    and_iff_left (not_isForeign_unwords h)]
  cases ws with
  | nil =>
    constructor
    · rintro ⟨lead, word, after, hfirst, -⟩
      have hnil := List.append_eq_nil_iff.mp hfirst.whole.symm
      exact absurd (List.append_eq_nil_iff.mp hnil.2).1 hfirst.isWord.1
    · rintro ⟨first, rest, action, before, hws, -⟩
      cases hws
  | cons first rest =>
    obtain ⟨after, hfirst⟩ := exists_isFirstWord_unwords (h first List.mem_cons_self) rest
    constructor
    · rintro ⟨lead, word, after', hword, hopens⟩
      rw [hword.unique hfirst, String.ofList_toList] at hopens
      obtain ⟨action, before, hopens⟩ := isOpening_iff.mp hopens
      exact ⟨first, rest, action, before, rfl, hopens⟩
    · rintro ⟨_, _, action, before, hws, hopens⟩
      cases hws
      refine ⟨[], first.toList, after, hfirst, ?_⟩
      rw [String.ofList_toList]
      exact isOpening_iff.mpr ⟨action, before, hopens⟩

theorem Command.parse_of_notVerb {text first : String} {rest : List String}
    (hwords : words (lower text) = first :: rest)
    (hopens : ¬ ∃ action before, Opens first action before) :
    Command.parse read text = .error (.refused .notVerb) := by
  have hall : ∀ word ∈ first :: rest, IsWord isBlank word.toList := by
    rw [← hwords]
    exact fun _ => isWord_of_mem_words
  rw [Command.parse, normalize, hwords, if_neg (List.cons_ne_nil _ _)]
  cases htree : read (unwords (first :: rest)) with
  | error e => rfl
  | ok tree =>
    obtain ⟨_, _, action, before, hws, h⟩ := (read_unwords_iff hread hall).mp ⟨tree, htree⟩
    cases hws
    exact absurd ⟨action, before, h⟩ hopens

/-- The tree of a sentence has the words of the text, cut at the first connector. -/
theorem Command.parse_of_opens {text first : String} {object later : List String} {action : Verb}
    {before : List String} (hwords : words (lower text) = first :: (object ++ later))
    (hopens : Opens first action before)
    (hobject : ∀ word ∈ object, connectorWords.lookup word = none)
    (hlater : ∀ word ∈ later.head?, IsConnector word) :
    ∃ (t : Token) (ts us : List Token), t.text = first ∧ ts.map Token.text = object ∧
      us.map Token.text = later ∧ AreOfKind (t :: (ts ++ us)) ∧
        Command.parse read text = Command.ofTree (.branch "start" (sentenceTrees t ts us)) := by
  have hall : ∀ word ∈ first :: (object ++ later), IsWord isBlank word.toList := by
    rw [← hwords]
    exact fun _ => isWord_of_mem_words
  obtain ⟨tree, htree⟩ := (read_unwords_iff hread hall).mpr ⟨_, _, action, before, rfl, hopens⟩
  have hbecomes := hread.becomes (unwords (first :: (object ++ later)))
  rw [htree] at hbecomes
  cases hbecomes with
  | @sentence lead word after all trees hfirst hopening _ _ kinds texts derives =>
    have hsplit : (splitWords isBlank (unwords (first :: (object ++ later))).toList).map
        String.ofList = first :: (object ++ later) := words_unwords hall
    rw [hsplit, List.map_cons] at texts
    obtain ⟨htext, hrest⟩ := List.cons.inj texts
    obtain ⟨ts, us, rfl, hts, hus⟩ := List.map_eq_append_iff.mp hrest
    have hcut : IsCut (tokenAt lead word) ts us := by
      refine (isCut_iff kinds).mpr ⟨hopening, fun t ht => ?_, fun t ht => hlater t.text ?_⟩
      · exact not_mem_connectorKeywords_iff.mpr (hobject _ (hts ▸ List.mem_map_of_mem ht))
      · rw [← hus, List.head?_map, Option.mem_def.mp ht]
        rfl
    obtain ⟨t, ts', us', hwhole, hcut', rfl⟩ := derives_body_iff.mp derives
    obtain ⟨rfl, hsame⟩ := List.cons.inj hwhole
    obtain ⟨rfl, rfl⟩ := hcut.unique hcut' hsame
    refine ⟨tokenAt lead word, ts, us, htext, hts, hus, kinds, ?_⟩
    rw [Command.parse, normalize, hwords, if_neg (List.cons_ne_nil _ _), htree]
    rfl

theorem Command.parse_of_connector {text first word : String} {object second : List String}
    {action : Verb} {before : List String} {connector : Connector}
    (hwords : words (lower text) = first :: (object ++ word :: second))
    (hopens : Opens first action before)
    (hobject : ∀ word ∈ object, connectorWords.lookup word = none)
    (hconnector : connectorWords.lookup word = some connector) : Command.parse read text =
      if withoutArticles second = [] then .error (.refused .indirectObjectRequired)
      else .ok ⟨action, nameOf (before ++ withoutArticles object),
        some (connector, withoutArticles second)⟩ := by
  have hhead : ∀ w ∈ (word :: second).head?, IsConnector w := by
    intro w hw
    obtain rfl := Option.mem_some.mp hw
    exact mem_connectorKeywords_iff.mpr ⟨connector, hconnector⟩
  obtain ⟨t, ts, us, rfl, rfl, hus, hkinds, hparse⟩ :=
    Command.parse_of_opens hread hwords hopens hobject hhead
  obtain ⟨c, us, rfl, rfl, rfl⟩ := List.map_eq_cons_iff.mp hus
  obtain ⟨-, hrest⟩ := List.forall_mem_cons.mp hkinds
  rw [hparse, hopens.ofTree hkinds,
    add_indirect (List.forall_mem_append.mp hrest).2 hconnector]
  split <;> rfl

/-- A text is parsed as its words in lower case mean. -/
theorem Means.parse_eq {text : String} {ws : List String}
    {outcome : Except CommandError Command} (h : Means ws outcome)
    (hwords : words (lower text) = ws) :
    Command.parse read text = outcome.mapError CommandFailure.refused := by
  cases h with
  | nothing =>
    rw [Command.parse, if_pos hwords]
    rfl
  | noVerb hverb hdirection =>
    refine Command.parse_of_notVerb hread hwords ?_
    rintro ⟨action, before, hopens⟩
    exact not_opens hverb hdirection action before hopens
  | @simple first action before object hopens hnone =>
    rw [← List.append_nil object] at hwords
    obtain ⟨t, ts, us, rfl, rfl, hus, hkinds, hparse⟩ :=
      Command.parse_of_opens hread hwords hopens hnone (by simp)
    obtain rfl := List.map_eq_nil_iff.mp hus
    rw [hparse, hopens.ofTree hkinds]
    rfl
  | dangling hopens hobject hconnector hnameless =>
    rw [Command.parse_of_connector hread hwords hopens hobject hconnector, if_pos hnameless]
    rfl
  | connected hopens hobject hconnector hnamed =>
    rw [Command.parse_of_connector hread hwords hopens hobject hconnector, if_neg hnamed]
    rfl

theorem Command.exists_means (text : String) : ∃ outcome, Means (words (lower text)) outcome ∧
    Command.parse read text = outcome.mapError CommandFailure.refused := by
  obtain ⟨outcome, hmeans⟩ := Means.total (words (lower text))
  exact ⟨outcome, hmeans, hmeans.parse_eq hread rfl⟩

end

theorem mapError_refused_injective {o o' : Except CommandError Command}
    (h : o.mapError CommandFailure.refused = o'.mapError CommandFailure.refused) : o = o' := by
  cases o with
  | ok c =>
    cases o' with
    | ok c' => exact congrArg Except.ok (Except.ok.inj h)
    | error e' => cases h
  | error e =>
    cases o' with
    | ok c' => cases h
    | error e' => exact congrArg Except.error (CommandFailure.refused.inj (Except.error.inj h))

theorem mapError_refused_eq_error_iff {o : Except CommandError Command} {e : CommandError} :
    o.mapError CommandFailure.refused = .error (.refused e) ↔ o = .error e := by
  constructor
  · intro h
    have hsame : o.mapError CommandFailure.refused =
        (Except.error e).mapError CommandFailure.refused := h
    exact mapError_refused_injective hsame
  · rintro rfl
    rfl

/-- A text means the command of its words in lower case, if sentences are read as the grammar says.
No tree is ever faulty.  The words are read as a sentence whatever follows a first word that opens
one, and no other reason than the first word refuses them. -/
theorem command_meaning {read : SentenceReader} (hread : FollowsGrammar commandGrammar read) :
    (∀ text outcome, Command.parse read text = outcome.mapError CommandFailure.refused ↔
        Means (words (lower text)) outcome) ∧
      (∀ text f, Command.parse read text ≠ .error (.broken f)) ∧
      (∀ ws : List String, (∀ word ∈ ws, IsWord isBlank word.toList) →
        ((∃ tree, read (unwords ws) = .ok tree) ↔
          ∃ first rest action before, ws = first :: rest ∧ Opens first action before)) ∧
      (∀ text, (∃ e, read (unwords (words (lower text))) = .error e) ↔
        Command.parse read text = .error (.refused .commandExpected) ∨
          Command.parse read text = .error (.refused .notVerb)) ∧
      CommandError.message .commandExpected = "cannot parse command: command expected" ∧
      CommandError.message .notVerb = "cannot parse command: not a valid verb" ∧
      CommandError.message .indirectObjectRequired =
        "cannot parse command: indirect object required after connector" := by
  refine ⟨?_, ?_, fun ws => read_unwords_iff hread, ?_, rfl, rfl, rfl⟩
  · intro text outcome
    refine ⟨fun hparse => ?_, fun hmeans => hmeans.parse_eq hread rfl⟩
    obtain ⟨outcome', hmeans, hparse'⟩ := Command.exists_means hread text
    rwa [mapError_refused_injective (hparse.symm.trans hparse')]
  · intro text f hparse
    obtain ⟨outcome, -, hparse'⟩ := Command.exists_means hread text
    rw [hparse'] at hparse
    cases outcome <;> cases hparse
  · intro text
    have hopens := @read_unwords_iff read hread (words (lower text)) fun _ => isWord_of_mem_words
    obtain ⟨outcome, hmeans, hparse⟩ := Command.exists_means hread text
    have hrefused := hmeans.refused_iff
    rw [← hopens] at hrefused
    have hfailed : (∃ e, read (unwords (words (lower text))) = .error e) ↔
        ¬ ∃ tree, read (unwords (words (lower text))) = .ok tree := by
      cases read (unwords (words (lower text))) <;> simp
    rw [hfailed, ← hrefused, hparse, mapError_refused_eq_error_iff, mapError_refused_eq_error_iff]

/-- Connectors after the first one, verbs and directions are read like any other word. -/
theorem command_meaning_of_toss :
    FollowsGrammar commandGrammar commandGrammar.read ∧
      (∀ word ∈ ["toss", "north", "in", "the", "in", "go"], IsWord isBlank word.toList) ∧
      (∃ tree, commandGrammar.read (unwords ["toss", "north", "in", "the", "in", "go"]) =
        .ok tree) := by
  have hread := commandGrammar.read_followsGrammar
  obtain ⟨-, -, hsentence, -⟩ := command_meaning hread
  have hwords : ∀ word ∈ ["toss", "north", "in", "the", "in", "go"],
      IsWord isBlank word.toList := by
    have hline : words "toss north in the in go" = ["toss", "north", "in", "the", "in", "go"] := by
      decide
    rw [← hline]
    exact fun _ => isWord_of_mem_words
  exact ⟨hread, hwords, (hsentence _ hwords).mpr ⟨"toss", _, .put, [], rfl, .verb (by decide)⟩⟩

end TextAdventure
