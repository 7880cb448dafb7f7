import Mathlib.Data.List.Chain
import TextAdventure.Text.Wrap
import TextAdventure.Proofs.Text.Words

/-!
# Levelled text and its chunks

Expanding tabs and levelling white space to spaces changes where separators stand and how
many there are, but no word (`splitWords_levelSpaces`).  The chunks of a text put together
are the text, each is made of spaces only or of other characters only, and the two kinds
take turns (`alternate_chunks`).  The chunks without a space are the words that the text
has between its spaces (`splitWords_eq_filter_chunks`).
-/

namespace TextAdventure.Text

/-! ## Expanded tabs and levelled spaces -/

theorem isBlank_space : isBlank ' ' = true := by decide

theorem tabWidth_sub_pos (column : Nat) : 0 < tabWidth - column % tabWidth := by
  have h := Nat.mod_lt column (show 0 < tabWidth by decide)
  omega

theorem startsApart_expandTabs (column : Nat) (cs : List Char) :
    StartsApart isBlank (expandTabs column cs) ↔ StartsApart isBlank cs := by
  cases cs with
  | nil => rfl
  | cons c cs =>
    rw [expandTabs]
    split
    · next htab =>
      obtain ⟨n, hn⟩ := Nat.exists_eq_add_of_lt (tabWidth_sub_pos column)
      rw [hn, Nat.zero_add, List.replicate_succ, List.cons_append, startsApart_cons,
        startsApart_cons, htab]
      decide
    · split <;> rw [startsApart_cons, startsApart_cons]

/-- Expanding tabs changes no word, from whichever column on. -/
theorem splitWords_expandTabs (column : Nat) (cs : List Char) :
    splitWords isBlank (expandTabs column cs) = splitWords isBlank cs := by
  induction cs generalizing column with
  | nil => rfl
  | cons c cs ih =>
    by_cases htab : c = '\t'
    · have hspaces : ∀ d ∈ List.replicate (tabWidth - column % tabWidth) ' ', isBlank d = true := by
        intro d hd
        rw [List.eq_of_mem_replicate hd, isBlank_space]
      have hc : isBlank c = true := by
        rw [htab]
        decide
      rw [expandTabs, if_pos htab, splitWords_separators hspaces, ih,
        splitWords_cons_of_separator hc]
    · have hkeep : ∃ next, expandTabs column (c :: cs) = c :: expandTabs next cs := by
        rw [expandTabs, if_neg htab]
        split
        · exact ⟨_, rfl⟩
        · exact ⟨_, rfl⟩
      obtain ⟨next, hnext⟩ := hkeep
      rw [hnext, splitWords_cons_congr (startsApart_expandTabs next cs) (ih next)]

theorem isBlank_of_isAsciiSpace {c : Char} (h : isAsciiSpace c = true) : isBlank c = true := by
  simp only [isAsciiSpace, Bool.or_eq_true, Bool.and_eq_true, decide_eq_true_eq] at h
  rcases h with rfl | hrange
  · exact isBlank_space
  · exact (covers_iff ascending_blankRuns _).mpr ⟨⟨0x9, 0xd⟩, by decide, hrange⟩

/-- A text has the same words before and after levelling. -/
theorem splitWords_levelSpaces (cs : List Char) :
    splitWords isBlank (levelSpaces cs) = splitWords isBlank cs := by
  have hsep : ∀ c, isBlank c = true → isBlank (if isAsciiSpace c then ' ' else c) = true := by
    intro c hc
    split
    · exact isBlank_space
    · exact hc
  have hletter : ∀ c, isBlank c = false → (if isAsciiSpace c then ' ' else c) = c := by
    intro c hc
    split
    · next hspace =>
      rw [isBlank_of_isAsciiSpace hspace] at hc
      cases hc
    · rfl
  rw [levelSpaces, splitWords_map hsep hletter, splitWords_expandTabs]

/-! ## Chunks that take turns -/

/-- A run of spaces. -/
def IsSpaces (chunk : List Char) : Prop := ∀ c ∈ chunk, c = ' '

theorem isSpaces_cons {c : Char} {w : List Char} :
    IsSpaces (c :: w) ↔ c = ' ' ∧ IsSpaces w := List.forall_mem_cons

theorem IsSpaces.mem {w : List Char} (h : IsSpaces w) (hw : w ≠ []) : ' ' ∈ w := by
  obtain ⟨c, hc⟩ := List.exists_mem_of_ne_nil w hw
  rwa [h c hc] at hc

/-- Chunks are not empty and have no space among other characters, and of two neighbours one is a
run of spaces. -/
structure Alternate (cs : List (List Char)) : Prop where
  ne_nil : ∀ c ∈ cs, c ≠ []
  uniform : ∀ c ∈ cs, IsSpaces c ∨ ' ' ∉ c
  turns : cs.IsChain fun a b => IsSpaces a ∨ IsSpaces b

theorem Alternate.nil : Alternate [] := ⟨by simp, by simp, .nil⟩

theorem Alternate.of_append_right {as bs : List (List Char)} (h : Alternate (as ++ bs)) :
    Alternate bs :=
  ⟨fun c hc => h.ne_nil c (List.mem_append_right _ hc),
    fun c hc => h.uniform c (List.mem_append_right _ hc),
    (List.isChain_append.mp h.turns).2.1⟩

theorem Alternate.of_append_left {as bs : List (List Char)} (h : Alternate (as ++ bs)) :
    Alternate as :=
  ⟨fun c hc => h.ne_nil c (List.mem_append_left _ hc),
    fun c hc => h.uniform c (List.mem_append_left _ hc),
    (List.isChain_append.mp h.turns).1⟩

/-- Spaces follow a chunk of other characters. -/
theorem Alternate.isSpaces_next {as bs : List (List Char)} (h : Alternate (as ++ bs))
    {a b : List Char} (ha : a ∈ as.getLast?) (hb : b ∈ bs.head?) (hletters : ¬ IsSpaces a) :
    IsSpaces b :=
  ((List.isChain_append.mp h.turns).2.2 a ha b hb).resolve_left hletters

theorem Alternate.startsApart {w : List Char} {cs : List (List Char)} (h : Alternate (w :: cs))
    (hletters : ' ' ∉ w) : StartsApart (· = ' ') cs.flatten := by
  have hw : ¬ IsSpaces w :=
    fun hspaces => hletters (hspaces.mem (h.ne_nil w (List.mem_cons_self ..)))
  cases cs with
  | nil => exact startsApart_nil
  | cons v cs =>
    have hv := (show Alternate ([w] ++ v :: cs) from h).isSpaces_next rfl rfl hw
    obtain ⟨c, v, rfl⟩ := List.exists_cons_of_ne_nil (h.ne_nil v (by simp))
    simpa using hv c (List.mem_cons_self ..)

/-- Put together, chunks that take turns have the ones without a space for words between spaces. -/
theorem Alternate.splitWords_flatten {cs : List (List Char)} (h : Alternate cs) :
    splitWords (· = ' ') cs.flatten = cs.filter (' ' ∉ ·) := by
  induction cs with
  | nil => rfl
  | cons w cs ih =>
    have hw := h.ne_nil w (List.mem_cons_self ..)
    have hrest := ih (show Alternate ([w] ++ cs) from h).of_append_right
    rw [List.flatten_cons]
    rcases h.uniform w (List.mem_cons_self ..) with hspaces | hletters
    · rw [splitWords_separators (fun c hc => decide_eq_true (hspaces c hc)), hrest,
        List.filter_cons_of_neg (by simpa using hspaces.mem hw)]
    · have hword : IsWord (· = ' ') w :=
        ⟨hw, fun c hc => decide_eq_false fun he => hletters (he ▸ hc)⟩
      rw [splitWords_word hword (h.startsApart hletters), hrest,
        List.filter_cons_of_pos (by simpa using hletters)]

/-- A character may stand in front of a run of its own kind. -/
theorem Alternate.cons_same {c d : Char} (h : d = ' ' ↔ c = ' ') {w : List Char}
    {ws : List (List Char)} (hws : Alternate ((d :: w) :: ws)) :
    Alternate ((c :: d :: w) :: ws) := by
  obtain ⟨hne, huniform, hturns⟩ := hws
  rw [List.forall_mem_cons] at hne huniform
  refine ⟨List.forall_mem_cons.mpr ⟨List.cons_ne_nil _ _, hne.2⟩,
    List.forall_mem_cons.mpr ⟨?_, huniform.2⟩, ?_⟩
  · rcases huniform.1 with hspaces | hletters
    · exact .inl (isSpaces_cons.mpr ⟨h.mp (isSpaces_cons.mp hspaces).1, hspaces⟩)
    · refine .inr fun hmem => ?_
      rcases List.mem_cons.mp hmem with hc | hmem
      · exact hletters (List.mem_cons.mpr (.inl (h.mpr hc.symm).symm))
      · exact hletters hmem
  · cases ws with
    | nil => exact .singleton _
    | cons v vs =>
      rw [List.isChain_cons_cons] at hturns ⊢
      refine ⟨hturns.1.imp_left fun hspaces => ?_, hturns.2⟩
      exact isSpaces_cons.mpr ⟨h.mp (isSpaces_cons.mp hspaces).1, hspaces⟩

theorem uniform_singleton (c : Char) : IsSpaces [c] ∨ ' ' ∉ [c] := by
  by_cases hc : c = ' '
  · exact .inl (by simp [IsSpaces, hc])
  · exact .inr (by simpa using Ne.symm hc)

/-- A character begins a run before a run of the other kind. -/
theorem Alternate.cons_apart {c d : Char} (h : ¬ (d = ' ' ↔ c = ' ')) {w : List Char}
    {ws : List (List Char)} (hws : Alternate ((d :: w) :: ws)) :
    Alternate ([c] :: (d :: w) :: ws) := by
  have huniform := hws.uniform _ (List.mem_cons_self ..)
  refine ⟨List.forall_mem_cons.mpr ⟨List.cons_ne_nil _ _, hws.ne_nil⟩,
    List.forall_mem_cons.mpr ⟨uniform_singleton c, hws.uniform⟩,
    List.isChain_cons_cons.mpr ⟨?_, hws.turns⟩⟩
  by_cases hc : c = ' '
  · exact .inl (by simp [IsSpaces, hc])
  · have hd : d = ' ' := by simpa [hc] using h
    exact .inr (huniform.resolve_right fun hletters => hletters (by simp [hd]))

/-! ## The chunks of a text -/

/-- The first chunk begins with the first character. -/
theorem chunks_cons (c : Char) (cs : List Char) : ∃ w ws, chunks (c :: cs) = (c :: w) :: ws := by
  rw [chunks]
  split
  · cases chunks cs with
    | nil => exact ⟨[], [], rfl⟩
    | cons w ws => exact ⟨w, ws, rfl⟩
  · exact ⟨[], chunks cs, rfl⟩

theorem chunks_same {c d : Char} (h : d = ' ' ↔ c = ' ') (cs : List Char) :
    chunks (c :: d :: cs) = consHead c (chunks (d :: cs)) := by
  rw [chunks, if_pos (by simpa using h)]

theorem chunks_apart {c d : Char} (h : ¬ (d = ' ' ↔ c = ' ')) (cs : List Char) :
    chunks (c :: d :: cs) = [c] :: chunks (d :: cs) := by
  rw [chunks, if_neg (by simpa using h)]

/-- The text is the chunks put together. -/
theorem flatten_chunks (cs : List Char) : (chunks cs).flatten = cs := by
  induction cs with
  | nil => rfl
  | cons c cs ih =>
    cases cs with
    | nil => rfl
    | cons d cs =>
      by_cases h : d = ' ' ↔ c = ' '
      · obtain ⟨w, ws, hchunks⟩ := chunks_cons d cs
        rw [chunks_same h, hchunks, consHead, List.flatten_cons, List.cons_append,
          ← List.flatten_cons, ← hchunks, ih]
      · rw [chunks_apart h, List.flatten_cons, ih, List.singleton_append]

/-- Runs of spaces and of other characters take turns. -/
theorem alternate_chunks (cs : List Char) : Alternate (chunks cs) := by
  induction cs with
  | nil => exact .nil
  | cons c cs ih =>
    cases cs with
    | nil =>
      exact ⟨by simp [chunks], by simpa [chunks] using uniform_singleton c, .singleton _⟩
    | cons d cs =>
      obtain ⟨w, ws, hchunks⟩ := chunks_cons d cs
      rw [hchunks] at ih
      by_cases h : d = ' ' ↔ c = ' '
      · rw [chunks_same h, hchunks]
        exact ih.cons_same h
      · rw [chunks_apart h, hchunks]
        exact ih.cons_apart h

/-- No two runs of spaces stand side by side. -/
theorem isChain_chunks (cs : List Char) :
    (chunks cs).IsChain fun a b => ¬ (IsSpaces a ∧ IsSpaces b) := by
  induction cs with
  | nil => exact .nil
  | cons c cs ih =>
    cases cs with
    | nil => exact .singleton _
    | cons d cs =>
      obtain ⟨w, ws, hchunks⟩ := chunks_cons d cs
      rw [hchunks] at ih
      by_cases h : d = ' ' ↔ c = ' '
      · obtain ⟨hnext, hrest⟩ := List.isChain_cons.mp ih
        rw [chunks_same h, hchunks, consHead]
        exact List.isChain_cons.mpr ⟨fun b hb hspaces =>
          hnext b hb (hspaces.imp_left fun hrun => (isSpaces_cons.mp hrun).2), hrest⟩
      · rw [chunks_apart h, hchunks, List.isChain_cons_cons]
        refine ⟨?_, ih⟩
        intro hboth
        obtain ⟨hspace, hspaces⟩ := hboth.imp isSpaces_cons.mp isSpaces_cons.mp
        exact h (iff_of_true hspaces.1 hspace.1)

/-- The chunks without a space are the words that stand between the spaces of the text. -/
theorem splitWords_eq_filter_chunks (cs : List Char) :
    splitWords (· = ' ') cs = (chunks cs).filter (' ' ∉ ·) := by
  have hwords := (alternate_chunks cs).splitWords_flatten
  rwa [flatten_chunks] at hwords

end TextAdventure.Text
