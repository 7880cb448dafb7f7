import TextAdventure.Proofs.Command.Meaning
import TextAdventure.Proofs.Text.Lowered

/-!
# Commands in words

A command that was parsed is written as a sentence that is parsed as the same command by
every reader that follows the grammar (`parse_sentence`).

The sentence has the words of the command (`Command.wording`) with one space between each
two.  They mean the command they are taken from (`Means.wording`): the word of a verb is a
verb again, the object has no connector and no article, a direction in front of it included,
and the connector is written by a word that stands for it.  There is a connector, `beside`,
that no word stands for, but no command that was parsed has it.

The words come from a text in lower case or from the vocabulary, which is in lower case as
well.  So putting the sentence in lower case changes nothing.
-/

namespace TextAdventure

open Text

/-! ## The words of a command -/

/-- The words that a command is written with. -/
def Command.wording (c : Command) : List String :=
  (c.verb.word :: c.direct.getD []) ++
    match c.indirect with
    | none => []
    | some (connector, name) => connector.word :: name

theorem Command.sentence_eq (c : Command) : c.sentence = unwords c.wording := rfl

@[simp] theorem getD_nameOf (ws : List String) : (nameOf ws).getD [] = ws := by
  unfold nameOf
  split
  · next hws => rw [hws]; rfl
  · rfl

/-- The word of a verb stands for it. -/
theorem lookup_verb_word (v : Verb) : verbWords.lookup v.word = some v := by
  cases v <;> decide

/-- The word of a connector that some word stands for stands for it as well. -/
theorem lookup_connector_word {word : String} {connector : Connector}
    (h : connectorWords.lookup word = some connector) :
    connectorWords.lookup connector.word = some connector := by
  have hwords : ∀ entry ∈ connectorWords,
      connectorWords.lookup entry.2.word = some entry.2 := by decide
  exact hwords _ (mem_of_lookup h)

theorem mem_withoutArticles {word : String} {ws : List String} :
    word ∈ withoutArticles ws ↔ word ∈ ws ∧ word ∉ articles := by
  simp [withoutArticles]

/-! ## What the words mean -/

section
variable {first : String} {action : Verb} {before : List String}
  (hopens : Opens first action before)

include hopens

/-- In front of the object stands nothing but the direction that the command opens with. -/
theorem Opens.eq_of_mem {word : String} (hword : word ∈ before) :
    word = first ∧ word ∈ directionKeywords := by
  cases hopens with
  | verb _ => cases hword
  | direction hdirection =>
    obtain rfl := List.mem_singleton.mp hword
    exact ⟨rfl, mem_directionKeywords_iff.mpr ⟨_, hdirection⟩⟩

theorem Opens.withoutArticles_object (object : List String) :
    withoutArticles (before ++ withoutArticles object) = before ++ withoutArticles object := by
  have hdirections : ∀ word ∈ directionKeywords, word ∉ articles := by decide
  refine List.filter_eq_self.mpr fun word hword => ?_
  rcases List.mem_append.mp hword with hbefore | hobject
  · simpa using hdirections word (hopens.eq_of_mem hbefore).2
  · simpa using (mem_withoutArticles.mp hobject).2

theorem Opens.noConnector_object {object : List String}
    (hobject : ∀ word ∈ object, connectorWords.lookup word = none) :
    ∀ word ∈ before ++ withoutArticles object, connectorWords.lookup word = none := by
  have hdirections : ∀ word ∈ directionKeywords, connectorWords.lookup word = none := by
    decide
  intro word hword
  rcases List.mem_append.mp hword with hbefore | hlater
  · exact hdirections word (hopens.eq_of_mem hbefore).2
  · exact hobject word (mem_withoutArticles.mp hlater).1

/-- The name of the object has words of the text only. -/
theorem Opens.subset_object (object : List String) :
    before ++ withoutArticles object ⊆ first :: object := by
  intro word hword
  rcases List.mem_append.mp hword with hbefore | hlater
  · rw [(hopens.eq_of_mem hbefore).1]
    exact List.mem_cons_self
  · exact List.mem_cons_of_mem first (mem_withoutArticles.mp hlater).1

end

/-- The words of a command that words mean, mean it again. -/
theorem Means.wording {ws : List String} {c : Command} (h : Means ws (.ok c)) :
    Means c.wording (.ok c) := by
  -- The words open with the verb itself, so a direction is now the first word of the object.
  cases h with
  | @simple first action before object hopens hnone =>
    have hmeans := Means.simple (.verb (lookup_verb_word action)) (hopens.noConnector_object hnone)
    rw [List.nil_append, hopens.withoutArticles_object] at hmeans
    simpa [Command.wording] using hmeans
  | @connected first word action before object second connector hopens hnone hconnects hnamed =>
    -- Connectors in the second object do no harm, since the first one splits the words.
    have htwice : withoutArticles (withoutArticles second) = withoutArticles second := by
      simp [withoutArticles]
    have hmeans := Means.connected (.verb (lookup_verb_word action))
      (hopens.noConnector_object hnone) (lookup_connector_word hconnects) (htwice ▸ hnamed)
    rw [List.nil_append, hopens.withoutArticles_object, htwice] at hmeans
    simpa [Command.wording] using hmeans

/-- The words of a command are those of the text, or of the vocabulary. -/
theorem Means.forall_wording {ws : List String} {c : Command} {P : String → Prop}
    (h : Means ws (.ok c)) (hws : ∀ word ∈ ws, P word) (hverb : ∀ v : Verb, P v.word)
    (hconnector : ∀ connector : Connector, P connector.word) : ∀ word ∈ c.wording, P word := by
  have hfront : ∀ {first : String} {action : Verb} {before : List String} (object : List String),
      Opens first action before → (∀ word ∈ first :: object, P word) →
      ∀ word ∈ action.word :: (before ++ withoutArticles object), P word := by
    intro first action before object hopens hobject
    refine List.forall_mem_cons.mpr ⟨hverb action, fun word hword => ?_⟩
    exact hobject word (hopens.subset_object object hword)
  cases h with
  | simple hopens hnone =>
    simp only [Command.wording, getD_nameOf, List.append_nil]
    exact hfront _ hopens hws
  | @connected first word action before object second connector hopens hnone hconnects hnamed =>
    rw [← List.cons_append] at hws
    obtain ⟨hobject, hlater⟩ := List.forall_mem_append.mp hws
    have hsecond : ∀ word ∈ withoutArticles second, P word := fun word hword =>
      hlater word (List.mem_cons_of_mem _ (mem_withoutArticles.mp hword).1)
    simp only [Command.wording, getD_nameOf]
    exact List.forall_mem_append.mpr ⟨hfront object hopens hobject,
      List.forall_mem_cons.mpr ⟨hconnector connector, hsecond⟩⟩

/-! ## Writing and parsing -/

/-- The word has letters, and all of them are in lower case. -/
def IsLowerWord (word : String) : Prop :=
  IsWord isBlank word.toList ∧ ∀ c ∈ word.toList, IsLowered c

instance (word : String) : Decidable (IsLowerWord word) :=
  decidable_of_iff (word.toList ≠ [] ∧
      (word.toList.all fun c => !isBlank c && decide (IsLowered c)) = true) <| by
    simp [IsLowerWord, IsWord, imp_and, forall_and, and_assoc]

theorem Verb.isLowerWord (v : Verb) : IsLowerWord v.word := by
  cases v <;> decide

theorem Connector.isLowerWord (connector : Connector) : IsLowerWord connector.word := by
  cases connector <;> decide

theorem isLowerWord_of_mem_words {text word : String} (h : word ∈ words (lower text)) :
    IsLowerWord word := by
  refine ⟨isWord_of_mem_words h, fun c hc => ?_⟩
  obtain ⟨letters, hletters, rfl⟩ := List.mem_map.mp h
  rw [String.toList_ofList] at hc
  exact isLowered_of_mem_lower (mem_of_mem_splitWords hletters hc)

/-- Words in lower case that are put together are found again. -/
theorem words_lower_unwords {ws : List String} (h : ∀ word ∈ ws, IsLowerWord word) :
    words (lower (unwords ws)) = ws := by
  have hlowered : ∀ c ∈ (unwords ws).toList, IsLowered c := by
    intro c hc
    rw [unwords, String.toList_ofList] at hc
    rcases eq_or_mem_of_mem_joinWith hc with rfl | ⟨letters, hletters, hcl⟩
    · decide
    · obtain ⟨word, hword, rfl⟩ := List.mem_map.mp hletters
      exact (h word hword).2 c hcl
  rw [lower_eq_self hlowered, words_unwords fun word hword => (h word hword).1]

/-- Whatever text a command comes from, its sentence is parsed as that command. -/
theorem parse_sentence {read : SentenceReader} (hread : FollowsGrammar commandGrammar read)
    {text : String} {c : Command} (h : Command.parse read text = .ok c) :
    Command.parse read c.sentence = .ok c := by
  obtain ⟨outcome, hmeans, hparse⟩ := Command.exists_means hread text
  obtain rfl : outcome = .ok c := mapError_refused_injective (hparse.symm.trans h)
  have hlower : ∀ word ∈ c.wording, IsLowerWord word :=
    hmeans.forall_wording (fun _ => isLowerWord_of_mem_words) Verb.isLowerWord
      Connector.isLowerWord
  have hwords : words (lower c.sentence) = c.wording := by
    rw [c.sentence_eq, words_lower_unwords hlower]
  exact hmeans.wording.parse_eq hread hwords

/-- Capitals and a final sigma are in lower case after the first reading, the articles are gone, and
of three connectors the later two belong to the second object. -/
theorem parse_sentence_of_toss :
    let text := "TOSS the ΣΑΣ\tonto a Chest in from an İ"
    let c : Command := ⟨.put, some ["σας"], some (.onto, ["chest", "in", "from", "i\u0307"])⟩
    FollowsGrammar commandGrammar commandGrammar.read ∧
      Command.parse commandGrammar.read text = .ok c ∧
      c.sentence = "put σας onto chest in from i\u0307" ∧
      Command.parse commandGrammar.read c.sentence = .ok c := by
  intro text c
  have hread := commandGrammar.read_followsGrammar
  have hwords : words (lower text) =
      "toss" :: (["the", "σας"] ++ "onto" :: ["a", "chest", "in", "from", "an", "i\u0307"]) := by
    decide +kernel
  have hmeans : Means (words (lower text)) (.ok c) := by
    rw [hwords]
    exact .connected (.verb (by decide)) (by decide) (by decide) (by decide)
  have hparse : Command.parse commandGrammar.read text = .ok c := hmeans.parse_eq hread rfl
  have hsentence : c.sentence = "put σας onto chest in from i\u0307" := by decide +kernel
  exact ⟨hread, hparse, hsentence, parse_sentence hread hparse⟩

end TextAdventure
