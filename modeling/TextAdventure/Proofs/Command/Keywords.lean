import TextAdventure.Command.Sentence
import TextAdventure.Command.Vocabulary

/-!
# Keywords and what they stand for

The grammar has lists of keywords, and the vocabulary has lists of what words stand for.
They are written down apart from each other, and they have the same words
(`verbKeywords_eq`, `directionKeywords_eq`, `connectorKeywords_eq`).  So a word that is read
as a keyword stands for something.
-/

namespace TextAdventure

section
variable {β : Type} {entries : List (String × β)} {word : String}

theorem mem_of_lookup {b : β} (h : entries.lookup word = some b) : (word, b) ∈ entries := by
  obtain ⟨before, behind, rfl, -⟩ := List.lookup_eq_some_iff.mp h
  simp

theorem lookup_eq_none_iff_not_mem : entries.lookup word = none ↔ word ∉ entries.map Prod.fst := by
  simp only [List.lookup_eq_none_iff, List.mem_map, not_exists, not_and, bne_iff_ne]
  exact forall_congr' fun _ => forall_congr' fun _ => ne_comm

theorem exists_lookup_iff : (∃ b, entries.lookup word = some b) ↔ word ∈ entries.map Prod.fst := by
  cases hlookup : entries.lookup word with
  | none => simpa using lookup_eq_none_iff_not_mem.mp hlookup
  | some b => simpa using ⟨b, mem_of_lookup hlookup⟩

end

theorem verbKeywords_eq : verbWords.map Prod.fst = verbKeywords := rfl

theorem directionKeywords_eq : directionWords.map Prod.fst = directionKeywords := rfl

theorem connectorKeywords_eq : connectorWords.map Prod.fst = connectorKeywords := rfl

theorem mem_verbKeywords_iff {word : String} :
    word ∈ verbKeywords ↔ ∃ v, verbWords.lookup word = some v := by
  rw [exists_lookup_iff, verbKeywords_eq]

theorem mem_directionKeywords_iff {word : String} :
    word ∈ directionKeywords ↔ ∃ d, directionWords.lookup word = some d := by
  rw [exists_lookup_iff, directionKeywords_eq]

theorem mem_connectorKeywords_iff {word : String} :
    word ∈ connectorKeywords ↔ ∃ c, connectorWords.lookup word = some c := by
  rw [exists_lookup_iff, connectorKeywords_eq]

theorem not_mem_connectorKeywords_iff {word : String} :
    word ∉ connectorKeywords ↔ connectorWords.lookup word = none := by
  rw [lookup_eq_none_iff_not_mem, connectorKeywords_eq]

/-- There is one word for a direction. -/
theorem word_of_lookup_direction {word : String} {d : Direction}
    (h : directionWords.lookup word = some d) : d.word = word := by
  have hwords : ∀ entry ∈ directionWords, entry.2.word = entry.1 := by decide
  exact hwords _ (mem_of_lookup h)

end TextAdventure
