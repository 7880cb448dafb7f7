import TextAdventure.Proofs.Text.Wrapping

/-!
# Texts with levelled spaces

Where all white space of a text is among the characters that are levelled, the levelled text
has no white space but spaces (`eq_space_of_mem_levelSpaces`).  Its chunks are then runs of
spaces and words, and the two take turns (`IsLevel`).

The chunks can be told from the text: a text that begins with a word has that word for its
first chunk, and one that is indented has the indent and the word behind it for its first two
(`isIndented_iff`).
-/

namespace TextAdventure.Text

/-! ## Levelled chunks -/

/-- The chunks have no white space but spaces, and no two runs of spaces stand side by side. -/
structure IsLevel (cs : List (List Char)) : Prop where
  alternate : Alternate cs
  apart : cs.IsChain fun a b => ¬ (IsSpaces a ∧ IsSpaces b)
  eq_space : ∀ c ∈ cs.flatten, isBlank c = true → c = ' '

theorem IsLevel.of_append {as bs : List (List Char)} (h : IsLevel (as ++ bs)) :
    IsLevel as ∧ IsLevel bs := by
  obtain ⟨halternate, hapart, hspace⟩ := h
  rw [List.flatten_append, List.forall_mem_append] at hspace
  obtain ⟨hleft, hright, -⟩ := List.isChain_append.mp hapart
  exact ⟨⟨halternate.of_append_left, hleft, hspace.1⟩,
    ⟨halternate.of_append_right, hright, hspace.2⟩⟩

theorem IsLevel.tail {c : List Char} {cs : List (List Char)} (h : IsLevel (c :: cs)) : IsLevel cs :=
  (show IsLevel ([c] ++ cs) from h).of_append.2

/-- A chunk is a run of spaces or a word. -/
theorem IsLevel.spaces_or_word {cs : List (List Char)} (h : IsLevel cs) {c : List Char}
    (hc : c ∈ cs) : IsSpaces c ∨ IsWord isBlank c := by
  refine (h.alternate.uniform c hc).imp_right fun hletters =>
    ⟨h.alternate.ne_nil c hc, fun x hx => ?_⟩
  cases hblank : isBlank x with
  | false => rfl
  | true => exact absurd (h.eq_space x (List.mem_flatten.mpr ⟨c, hc, hx⟩) hblank ▸ hx) hletters

theorem IsWord.space_not_mem {w : List Char} (h : IsWord isBlank w) : ' ' ∉ w := by
  intro hmem
  have hblank := h.2 ' ' hmem
  rw [isBlank_space] at hblank
  cases hblank

theorem IsWord.not_isSpaces {w : List Char} (h : IsWord isBlank w) : ¬ IsSpaces w :=
  fun hspaces => h.space_not_mem (hspaces.mem h.1)

theorem IsWord.isBlankChunk_eq_false {w : List Char} (h : IsWord isBlank w) :
    isBlankChunk w = false := by
  obtain ⟨c, hc⟩ := List.exists_mem_of_ne_nil w h.1
  rw [isBlankChunk, List.all_eq_false]
  exact ⟨c, hc, by rw [h.2 c hc]; exact Bool.false_ne_true⟩

theorem IsLevel.isSpaces_of_isBlankChunk {cs : List (List Char)} (h : IsLevel cs) {c : List Char}
    (hc : c ∈ cs) (hblank : isBlankChunk c = true) : IsSpaces c := by
  refine (h.spaces_or_word hc).resolve_right fun hword => ?_
  rw [hword.isBlankChunk_eq_false] at hblank
  cases hblank

/-- A word follows a run of spaces. -/
theorem IsLevel.word_next {a b : List Char} {cs : List (List Char)} (h : IsLevel (a :: b :: cs))
    (ha : IsSpaces a) : IsWord isBlank b :=
  (h.spaces_or_word (by simp)).resolve_left fun hb =>
    (List.isChain_cons_cons.mp h.apart).1 ⟨ha, hb⟩

/-! ## Lines that begin with a word -/

/-- The word is the first of the line, and nothing stands before it. -/
def BeginsWith (line word : List Char) : Prop :=
  ∃ rest, line = word ++ rest ∧ IsWord isBlank word ∧ StartsApart isBlank rest

theorem BeginsWith.head?_ne_space {line word : List Char} (h : BeginsWith line word) :
    line.head? ≠ some ' ' := by
  obtain ⟨rest, rfl, hword, -⟩ := h
  obtain ⟨c, word, rfl⟩ := List.exists_cons_of_ne_nil hword.1
  intro hspace
  obtain rfl : c = ' ' := by simpa using hspace
  exact hword.space_not_mem List.mem_cons_self

theorem IsLevel.beginsWith {w : List Char} {cs : List (List Char)} (h : IsLevel (w :: cs))
    (hw : IsWord isBlank w) : BeginsWith (w :: cs).flatten w := by
  refine ⟨cs.flatten, List.flatten_cons, hw, fun c hc => ?_⟩
  have hspace := h.alternate.startsApart hw.space_not_mem c hc
  rw [of_decide_eq_true hspace, isBlank_space]

/-- What stands behind a run of spaces does not begin with a space. -/
theorem IsLevel.head?_ne_space {s : List Char} {cs : List (List Char)} (h : IsLevel (s :: cs))
    (hs : IsSpaces s) : cs.flatten.head? ≠ some ' ' := by
  cases cs with
  | nil => simp
  | cons w cs => exact (h.tail.beginsWith (h.word_next hs)).head?_ne_space

/-! ## Chunks told from the text -/

theorem BeginsWith.unique {line word other : List Char} (h : BeginsWith line word)
    (h' : BeginsWith line other) : word = other := by
  obtain ⟨rest, rfl, hword, hrest⟩ := h
  obtain ⟨rest', heq, hother, hrest'⟩ := h'
  exact hword.eq_of_append_eq hother hrest hrest' heq

/-- Where only a space is no separator, a run of spaces is a word. -/
theorem IsSpaces.isWord {cs : List Char} (h : IsSpaces cs) (hne : cs ≠ []) :
    IsWord (· ≠ ' ') cs :=
  ⟨hne, fun c hc => by simpa using h c hc⟩

theorem startsApart_of_head?_ne_space {cs : List Char} (h : cs.head? ≠ some ' ') :
    StartsApart (· ≠ ' ') cs := by
  intro c hc
  refine decide_eq_true fun hspace => h ?_
  rw [← hspace]
  exact hc

/-- The text begins with spaces, and together with the word behind them these fit in the width. -/
def IsIndented (width : Nat) (text : List Char) : Prop :=
  ∃ indent word rest, text = indent ++ (word ++ rest) ∧ indent ≠ [] ∧ IsSpaces indent ∧
    IsWord isBlank word ∧ StartsApart isBlank rest ∧ (indent ++ word).length ≤ width

theorem IsLevel.exists_cons_of_spaces {cs : List (List Char)} (h : IsLevel cs)
    {indent rest : List Char} (htext : cs.flatten = indent ++ rest) (hne : indent ≠ [])
    (hindent : IsSpaces indent) (hrest : rest.head? ≠ some ' ') :
    ∃ behind, cs = indent :: behind ∧ behind.flatten = rest := by
  have hfirst : cs.flatten.head? = some ' ' := by
    obtain ⟨c, indent, rfl⟩ := List.exists_cons_of_ne_nil hne
    rw [htext, hindent c List.mem_cons_self]
    rfl
  cases cs with
  | nil => cases hfirst
  | cons s cs =>
    have hs : IsSpaces s := (h.spaces_or_word List.mem_cons_self).resolve_right fun hword =>
      (h.beginsWith hword).head?_ne_space hfirst
    rw [List.flatten_cons] at htext
    obtain rfl : s = indent :=
      (hs.isWord (h.alternate.ne_nil s List.mem_cons_self)).eq_of_append_eq (hindent.isWord hne)
        (startsApart_of_head?_ne_space (h.head?_ne_space hs))
        (startsApart_of_head?_ne_space hrest) htext
    exact ⟨cs, rfl, List.append_cancel_left htext⟩

theorem IsLevel.exists_cons_of_word {cs : List (List Char)} (h : IsLevel cs) {word : List Char}
    (htext : BeginsWith cs.flatten word) : ∃ behind, cs = word :: behind := by
  cases cs with
  | nil =>
    obtain ⟨rest, hrest, hword, -⟩ := htext
    exact absurd (List.append_eq_nil_iff.mp hrest.symm).1 hword.1
  | cons w cs =>
    have hw : IsWord isBlank w := (h.spaces_or_word List.mem_cons_self).resolve_left fun hs => by
      obtain ⟨c, w, rfl⟩ := List.exists_cons_of_ne_nil (h.alternate.ne_nil w List.mem_cons_self)
      obtain rfl := hs c List.mem_cons_self
      exact htext.head?_ne_space rfl
    exact ⟨cs, by rw [(h.beginsWith hw).unique htext]⟩

/-- The indent of a text and the word behind it are its first two chunks. -/
theorem isIndented_iff {width : Nat} {cs : List (List Char)} (h : IsLevel cs) :
    IsIndented width cs.flatten ↔
      ∃ indent word rest, cs = indent :: word :: rest ∧ IsSpaces indent ∧ IsWord isBlank word ∧
        (indent ++ word).length ≤ width := by
  constructor
  · rintro ⟨indent, word, rest, htext, hne, hindent, hword, hrest, hfits⟩
    have hbegins : BeginsWith (word ++ rest) word := ⟨rest, rfl, hword, hrest⟩
    obtain ⟨behind, rfl, hbehind⟩ :=
      h.exists_cons_of_spaces htext hne hindent hbegins.head?_ne_space
    obtain ⟨later, rfl⟩ := h.tail.exists_cons_of_word (hbehind ▸ hbegins)
    exact ⟨indent, word, later, rfl, hindent, hword, hfits⟩
  · rintro ⟨indent, word, rest, rfl, hindent, hword, hfits⟩
    obtain ⟨later, hlater, -, hstarts⟩ := h.tail.beginsWith hword
    exact ⟨indent, word, later, by rw [List.flatten_cons, hlater],
      h.alternate.ne_nil indent List.mem_cons_self, hindent, hword, hstarts, hfits⟩

/-! ## Texts with levelled spaces -/

theorem mem_expandTabs {column : Nat} {cs : List Char} {c : Char} (h : c ∈ expandTabs column cs) :
    c = ' ' ∨ c ∈ cs := by
  induction cs generalizing column with
  | nil => cases h
  | cons d cs ih =>
    rw [expandTabs] at h
    split at h
    · rcases List.mem_append.mp h with hspace | hrest
      · exact .inl (List.eq_of_mem_replicate hspace)
      · exact (ih hrest).imp_right (List.mem_cons_of_mem d)
    · split at h
      all_goals
        rcases List.mem_cons.mp h with rfl | hrest
        · exact .inr List.mem_cons_self
        · exact (ih hrest).imp_right (List.mem_cons_of_mem d)

/-- Where all white space is among the characters that are levelled, spaces are left. -/
theorem eq_space_of_mem_levelSpaces {cs : List Char}
    (h : ∀ c ∈ cs, isBlank c = true → isAsciiSpace c = true) :
    ∀ c ∈ levelSpaces cs, isBlank c = true → c = ' ' := by
  intro c hc hblank
  obtain ⟨d, hd, rfl⟩ := List.mem_map.mp hc
  by_cases hspace : isAsciiSpace d = true
  · exact if_pos hspace
  · rw [if_neg hspace] at hblank ⊢
    exact (mem_expandTabs hd).resolve_right fun hmem => hspace (h d hmem hblank)

theorem isLevel_chunks {cs : List Char} (h : ∀ c ∈ cs, isBlank c = true → c = ' ') :
    IsLevel (chunks cs) :=
  ⟨alternate_chunks cs, isChain_chunks cs, by rwa [flatten_chunks]⟩

end TextAdventure.Text
