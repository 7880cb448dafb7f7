import TextAdventure.Proofs.Text.Spaced

/-!
# Full and clean lines

Where a text has no white space but spaces once they are levelled, a line is never empty, and
spaces do not end it.  They begin no line but the first, and that only if they fit in it
together with the word behind them (`Wraps.indented_iff`).

Every line is full: together with the gap behind it and the first word of the next line it
is longer than the width (`IsFull`).  The invariant of the loop (`IsTight`) says this of the
lines written so far.  It is kept because the first chunk that does not fit in a line is
found again in front of the next one: it is that word, or the spaces before it.
-/

namespace TextAdventure.Text

/-! ## What a pass takes -/

/-- The first chunk that is left does not fit in the room. -/
theorem lt_length_fill (room : Nat) (cs : List (List Char)) :
    ∀ c ∈ (fill room cs).2.head?, room < (fill room cs).1.flatten.length + c.length := by
  induction cs generalizing room with
  | nil => simp [fill]
  | cons d cs ih =>
    rw [fill]
    split
    · next hfits =>
      intro c hc
      have hrest := ih (room - d.length) c hc
      rw [List.flatten_cons, List.length_append]
      omega
    · next hlong =>
      intro c hc
      obtain rfl : d = c := by simpa using hc
      simpa using hlong

/-- The first chunk that is left does not fit in the line. -/
theorem lt_length_takeLine (width : Nat) (cs : List (List Char)) :
    ∀ c ∈ (takeLine width cs).2.head?,
      width < (takeLine width cs).1.flatten.length + c.length := by
  have hfill := lt_length_fill width cs
  unfold takeLine
  split
  · next behind d rest hnone =>
    -- Nothing was taken, so the chunk that is taken alone is too long by itself.
    have hover := fill_append width (d :: rest)
    rw [hnone, List.nil_append] at hover
    rw [hnone, hover] at hfill
    have hlong := hfill d rfl
    intro c _
    simp only [List.flatten_nil, List.length_nil, List.flatten_singleton] at hlong ⊢
    omega
  · exact hfill

section
variable {width : Nat} {isFirst : Bool} {cs before kept after rest : List (List Char)}
  (hpass : IsPass width isFirst cs before kept after rest)

include hpass

theorem IsPass.taken_ne_nil : kept ++ after ≠ [] := by
  have htaken := takeLine_ne_nil width hpass.start_ne_nil
  rwa [hpass.taken] at htaken

theorem IsPass.lt_length {c : List Char} (hc : c ∈ rest.head?) :
    width < (kept ++ after).flatten.length + c.length := by
  have hfull := lt_length_takeLine width (lineStart isFirst cs)
  rw [hpass.taken] at hfull
  exact hfull c hc

theorem IsPass.isLevel_taken (hcs : IsLevel cs) : IsLevel (kept ++ after) := by
  rw [← hpass.whole, ← List.append_assoc kept] at hcs
  exact hcs.of_append.2.of_append.1

theorem IsPass.isLevel_rest (hcs : IsLevel cs) : IsLevel rest := by
  rw [← hpass.whole, ← List.append_assoc kept] at hcs
  exact hcs.of_append.2.of_append.2

/-- What is written ends with a word. -/
theorem IsPass.word_last (hcs : IsLevel cs) : ∀ c ∈ kept.getLast?, IsWord isBlank c := by
  intro c hc
  have hlevel := hpass.isLevel_taken hcs
  have hmem := List.mem_of_getLast? hc
  refine (hlevel.spaces_or_word (List.mem_append_left _ hmem)).resolve_left fun hspaces => ?_
  cases after with
  | nil =>
    -- Nothing was left out at the end, so the last chunk is not blank.
    obtain ⟨dropped, hdropped, -, hlast⟩ := dropBlankLast_split kept
    have hwritten := hpass.written
    rw [List.append_nil] at hwritten
    rw [hwritten] at hdropped
    have hletters := hlast (List.append_right_eq_self.mp hdropped) c hc
    rw [isBlankChunk_of_isSpaces hspaces] at hletters
    cases hletters
  | cons b after =>
    -- Spaces were left out, and they do not follow spaces.
    have hb : IsSpaces b := hlevel.isSpaces_of_isBlankChunk (by simp)
      (hpass.after_blank b List.mem_cons_self)
    exact (List.isChain_append.mp hlevel.apart).2.2 c hc b rfl ⟨hspaces, hb⟩

/-- After a line what is taken begins with a word. -/
theorem IsPass.word_first (hlater : isFirst = false) (hcs : IsLevel cs) :
    ∀ c ∈ (kept ++ after).head?, IsWord isBlank c := by
  intro c hc
  subst hlater
  obtain ⟨more, hmore⟩ : ∃ more, kept ++ after = c :: more := List.head?_eq_some_iff.mp hc
  have hstart := hpass.lineStart_eq
  rw [← List.append_assoc, hmore] at hstart
  cases cs with
  | nil => cases hstart
  | cons d cs =>
    cases hd : isBlankChunk d with
    | true =>
      have hspaces := hcs.isSpaces_of_isBlankChunk List.mem_cons_self hd
      have hcs' : cs = c :: (more ++ rest) := by
        simpa [lineStart, dropBlankFirst, hd] using hstart
      rw [hcs'] at hcs
      exact hcs.word_next hspaces
    | false =>
      have hcd : d = c ∧ cs = more ++ rest := by
        simpa [lineStart, dropBlankFirst, hd] using hstart
      rw [← hcd.1]
      refine (hcs.spaces_or_word List.mem_cons_self).resolve_left fun hspaces => ?_
      rw [isBlankChunk_of_isSpaces hspaces] at hd
      cases hd

end

/-! ## The invariant of the loop -/

/-- A line, the gap behind it and the first word of the next line are longer than the width. -/
def IsFull (width : Nat) (p q : Piece) : Prop :=
  ∃ word, BeginsWith q.line word ∧ width < (p.line ++ (p.gap ++ word)).length

/-- The lines are full and do not end with a space.  Where a line was written before, the first of
them begins with a word, and the first of the chunks reaches no further than that word. -/
structure IsTight (width : Nat) (isFirst : Bool) (cs : List (List Char)) (lead : List Char)
    (pieces : List Piece) : Prop where
  full : pieces.IsChain (IsFull width)
  ends : ∀ p ∈ pieces, p.line.getLast? ≠ some ' '
  reach : isFirst = false → ∀ p ∈ pieces.head?, ∃ word, BeginsWith p.line word ∧
    ∀ c ∈ cs.head?, c.length ≤ (lead ++ word).length

theorem length_le_of_mem_head? {as bs : List (List Char)} (has : as ≠ []) {c : List Char}
    (hc : c ∈ (as ++ bs).head?) : c.length ≤ as.flatten.length := by
  obtain ⟨a, as, rfl⟩ := List.exists_cons_of_ne_nil has
  obtain rfl : a = c := by simpa using hc
  rw [List.flatten_cons, List.length_append]
  exact Nat.le_add_right _ _

theorem getLast?_flatten_ne_space {cs : List (List Char)} (hne : cs ≠ [])
    (hlast : ∀ c ∈ cs.getLast?, IsWord isBlank c) : cs.flatten.getLast? ≠ some ' ' := by
  obtain ⟨front, w, rfl⟩ := (List.eq_nil_or_concat cs).resolve_left hne
  obtain ⟨hw, hletters⟩ := hlast w (by simp)
  obtain ⟨letters, c, rfl⟩ := (List.eq_nil_or_concat w).resolve_left hw
  have hc := hletters c (by simp)
  intro hspace
  obtain rfl : c = ' ' := by simpa [← List.append_assoc] using hspace
  rw [isBlank_space] at hc
  cases hc

theorem Wraps.isTight {width : Nat} {isFirst : Bool} {cs : List (List Char)} {lead : List Char}
    {pieces : List Piece} (h : Wraps width isFirst cs lead pieces) (hcs : IsLevel cs) :
    IsTight width isFirst cs lead pieces := by
  induction h with
  | finished hstart => exact ⟨.nil, by simp, by simp⟩
  | @skipped _ _ before after rest lead _ hpass _ ih =>
    obtain ⟨hfull, hends, hreach⟩ := ih (hpass.isLevel_rest hcs)
    refine ⟨hfull, hends, fun hlater p hp => ?_⟩
    obtain ⟨word, hbegins, -⟩ := hreach hlater p hp
    refine ⟨word, hbegins, fun c hc => ?_⟩
    -- The first chunk was left out, and so stands before the line.
    rw [← hpass.whole, List.nil_append, ← List.append_assoc] at hc
    have hafter : after ≠ [] := hpass.taken_ne_nil
    have hlength := length_le_of_mem_head? (List.append_ne_nil_of_right_ne_nil _ hafter) hc
    simp only [List.flatten_append, List.length_append] at hlength ⊢
    omega
  | @written isFirst _ before kept after rest lead pieces hpass hkept hwraps ih =>
    obtain ⟨hfull, hends, hreach⟩ := ih (hpass.isLevel_rest hcs)
    refine ⟨List.isChain_cons.mpr ⟨fun q hq => ?_, hfull⟩,
      List.forall_mem_cons.mpr ⟨?_, hends⟩, fun hlater p hp => ?_⟩
    · -- What did not fit in this line is in front of the next one, its first word included.
      obtain ⟨word, hbegins, hreached⟩ := hreach rfl q hq
      have hrest : rest ≠ [] := by
        rintro rfl
        obtain rfl := (hwraps.isCut .nil).1.pieces_eq_nil
        cases hq
      obtain ⟨c, later, rfl⟩ := List.exists_cons_of_ne_nil hrest
      have hover := hpass.lt_length (c := c) rfl
      have hlength := hreached c rfl
      refine ⟨word, hbegins, ?_⟩
      simp only [List.flatten_append, List.length_append] at hover hlength ⊢
      omega
    · exact getLast?_flatten_ne_space hkept (hpass.word_last hcs)
    · obtain rfl : _ = p := Option.some.inj hp
      obtain ⟨w, more, rfl⟩ := List.exists_cons_of_ne_nil hkept
      have hw := hpass.word_first hlater hcs w rfl
      have hlevel := (hpass.isLevel_taken hcs).of_append.1
      refine ⟨w, hlevel.beginsWith hw, fun c hc => ?_⟩
      rw [← hpass.whole, List.cons_append, List.append_cons] at hc
      have hlength := length_le_of_mem_head? (by simp) hc
      simpa using hlength

/-- Where the chunks begin with a word, so does the first line. -/
theorem Wraps.beginsWith {width : Nat} {isFirst : Bool} {w : List Char} {cs : List (List Char)}
    {lead : List Char} {pieces : List Piece} (h : Wraps width isFirst (w :: cs) lead pieces)
    (hcs : IsLevel (w :: cs)) (hw : IsWord isBlank w) :
    ∃ p ∈ pieces.head?, BeginsWith p.line w := by
  have hstart : lineStart isFirst (w :: cs) = w :: cs := by
    cases isFirst with
    | true => rfl
    | false => simp [lineStart, dropBlankFirst, hw.isBlankChunk_eq_false]
  cases h with
  | finished hnone =>
    rw [hstart] at hnone
    cases hnone
  | @skipped _ _ _ after _ _ _ hpass _ =>
    -- A word is never left out.
    have hline := hpass.lineStart_eq
    obtain ⟨b, more, rfl⟩ := List.exists_cons_of_ne_nil (show after ≠ [] from hpass.taken_ne_nil)
    rw [hstart] at hline
    obtain rfl : w = b := (List.cons.inj hline).1
    have hblank := hpass.after_blank w List.mem_cons_self
    rw [hw.isBlankChunk_eq_false] at hblank
    cases hblank
  | written hpass hkept _ =>
    have hline := hpass.lineStart_eq
    obtain ⟨b, more, rfl⟩ := List.exists_cons_of_ne_nil hkept
    rw [hstart] at hline
    obtain rfl : w = b := (List.cons.inj hline).1
    exact ⟨_, rfl, (hpass.isLevel_taken hcs).of_append.1.beginsWith hw⟩

/-! ## The indent of the first line -/

/-- The first line begins with a space if and only if the text begins with spaces that fit in it
together with the word behind them. -/
theorem Wraps.indented_iff {width : Nat} {cs : List (List Char)} {lead : List Char}
    {pieces : List Piece} (h : Wraps width true cs lead pieces) (hcs : IsLevel cs) :
    (∃ p ∈ pieces.head?, p.line.head? = some ' ') ↔
      ∃ indent word rest, cs = indent :: word :: rest ∧ IsSpaces indent ∧ IsWord isBlank word ∧
        (indent ++ word).length ≤ width := by
  cases h with
  | finished hnone =>
    obtain rfl : cs = [] := hnone
    simp
  | @skipped _ _ _ after rest _ _ hpass hlater =>
    -- The line would have been the first spaces alone, since the word does not fit.
    have hline : cs = after ++ rest := hpass.lineStart_eq
    obtain ⟨s, more, rfl⟩ := List.exists_cons_of_ne_nil (show after ≠ [] from hpass.taken_ne_nil)
    have hs : IsSpaces s := hcs.isSpaces_of_isBlankChunk (by simp [hline])
      (hpass.after_blank s List.mem_cons_self)
    subst hline
    have hmore : more = [] := by
      cases more with
      | nil => rfl
      | cons b more =>
        have hword := hcs.word_next hs
        have hblank := hpass.after_blank b (by simp)
        rw [hword.isBlankChunk_eq_false] at hblank
        cases hblank
    subst hmore
    constructor
    · rintro ⟨p, hp, hspace⟩
      cases rest with
      | nil =>
        obtain rfl := (hlater.isCut .nil).1.pieces_eq_nil
        cases hp
      | cons w rest =>
        have hw := hcs.word_next hs
        obtain ⟨q, hq, hbegins⟩ := hlater.beginsWith (hpass.isLevel_rest hcs) hw
        obtain rfl := Option.mem_unique hp hq
        exact absurd hspace hbegins.head?_ne_space
    · rintro ⟨indent, word, later, heq, -, -, hfits⟩
      obtain ⟨rfl, rfl⟩ := List.cons.inj heq
      have hover := hpass.lt_length (c := word) rfl
      simp only [List.nil_append, List.flatten_singleton, List.length_append] at hover hfits
      omega
  | @written _ _ _ kept after rest _ _ hpass hkept hlater =>
    have hline : cs = kept ++ (after ++ rest) := hpass.lineStart_eq
    obtain ⟨s, more, rfl⟩ := List.exists_cons_of_ne_nil hkept
    have hne := hcs.alternate.ne_nil s (by simp [hline])
    constructor
    · rintro ⟨p, hp, hspace⟩
      obtain rfl : _ = p := Option.some.inj hp
      have hs : IsSpaces s := by
        refine (hcs.spaces_or_word (by simp [hline])).resolve_right fun hword => ?_
        have hlevel := (hpass.isLevel_taken hcs).of_append.1
        exact (hlevel.beginsWith hword).head?_ne_space hspace
      cases more with
      | nil => exact absurd hs (hpass.word_last hcs s rfl).not_isSpaces
      | cons w more =>
        subst hline
        refine ⟨s, w, _, rfl, hs, hcs.word_next hs, ?_⟩
        have hfits := takeLine_fits width (lineStart true (s :: w :: more ++ (after ++ rest)))
        rw [hpass.taken] at hfits
        rcases hfits with hfits | ⟨c, hc⟩
        · simp only [List.flatten_append, List.flatten_cons, List.length_append] at hfits ⊢
          omega
        · simp at hc
    · rintro ⟨indent, word, later, heq, hindent, -, -⟩
      rw [hline] at heq
      obtain ⟨rfl, -⟩ := List.cons.inj heq
      refine ⟨_, rfl, ?_⟩
      obtain ⟨c, s, rfl⟩ := List.exists_cons_of_ne_nil hne
      rw [hindent c List.mem_cons_self]
      rfl

/-! ## Wrapping -/

theorem exists_of_mem_tail {α : Type} {R : α → α → Prop} {xs : List α} (h : xs.IsChain R) :
    ∀ y ∈ xs.tail, ∃ x, R x y := by
  induction h with
  | nil => simp
  | singleton => simp
  | cons_cons hxy _ ih =>
    exact List.forall_mem_cons.mpr ⟨⟨_, hxy⟩, ih⟩

theorem splitWords_eq_nil_iff {p : Char → Bool} {cs : List Char} :
    splitWords p cs = [] ↔ ∀ c ∈ cs, p c = true := by
  induction cs with
  | nil => simp
  | cons c cs ih =>
    cases hc : p c with
    | true => simp [splitWords_cons_of_separator hc, hc, ih]
    | false =>
      have hne := splitWords_ne_nil (show ¬ StartsApart p (c :: cs) by simp [hc])
      simp [hne, hc]

/-- There are lines if and only if the text has a word, since no line is blank. -/
theorem IsCut.pieces_eq_nil_iff {text lead : List Char} {pieces : List Piece}
    (h : IsCut text lead pieces) (hspace : ∀ c ∈ text, isBlank c = true → c = ' ')
    (hends : ∀ p ∈ pieces, p.line.getLast? ≠ some ' ') :
    pieces = [] ↔ splitWords isBlank text = [] := by
  rw [h.splitWords_eq, List.flatMap_eq_nil_iff]
  constructor
  · rintro rfl
    simp
  · intro hblank
    refine List.eq_nil_iff_forall_not_mem.mpr fun p hp => hends p hp ?_
    have hline := splitWords_eq_nil_iff.mp (hblank p.line (List.mem_map_of_mem hp))
    obtain ⟨front, c, hc⟩ := (List.eq_nil_or_concat p.line).resolve_left (h.line_ne_nil p hp)
    have hmem : c ∈ p.line := by simp [hc]
    have htext : c ∈ text := by
      rw [h.whole]
      exact List.mem_append_right _ (List.mem_flatMap.mpr ⟨p, hp, List.mem_append_left _ hmem⟩)
    rw [hc, List.concat_eq_append, List.getLast?_concat, hspace c htext (hline c hmem)]

/-- Where a text has no white space but what is levelled to spaces, its lines are full and clean.
None is empty or ends with a space, and none but the first begins with one, which does so if the
text begins with spaces that fit in it together with the first word.  There are no lines only if
there are no words.  No line could have held one more word.  Words with single spaces between them
are given back by the lines with single spaces between them. -/
theorem wrap_greedy {text : String}
    (hspace : ∀ c ∈ text.toList, isBlank c = true → isAsciiSpace c = true) {width : Int}
    (hwidth : 0 < width) :
    ∃ lines lead pieces, wrap text width = .ok lines ∧
      IsCut (levelSpaces text.toList) lead pieces ∧
      lines.map String.toList = pieces.map Piece.line ∧
      (∀ line ∈ lines, line ≠ "") ∧
      (∀ line ∈ lines, line.toList.getLast? ≠ some ' ') ∧
      (∀ line ∈ lines.tail, line.toList.head? ≠ some ' ') ∧
      ((∃ line ∈ lines.head?, line.toList.head? = some ' ') ↔
        IsIndented width.toNat (levelSpaces text.toList)) ∧
      (lines = [] ↔ words text = []) ∧
      pieces.IsChain (IsFull width.toNat) ∧
      (unwords (words text) = text → unwords lines = text) := by
  have hlevelled := eq_space_of_mem_levelSpaces hspace
  have hlevel := isLevel_chunks hlevelled
  obtain ⟨lead, pieces, hwraps, hlines⟩ := exists_wraps width.toNat true hlevel.alternate
  have hcut := (hwraps.isCut hlevel.alternate).1
  rw [flatten_chunks] at hcut
  obtain ⟨hfull, hends, -⟩ := hwraps.isTight hlevel
  have hlater := exists_of_mem_tail hfull
  have hindented := (hwraps.indented_iff hlevel).trans (isIndented_iff hlevel).symm
  rw [flatten_chunks] at hindented
  have htoList : ((pieces.map Piece.line).map String.ofList).map String.toList =
      pieces.map Piece.line := by simp
  refine ⟨_, lead, pieces, if_neg (Int.not_le.mpr hwidth), hcut, ?_⟩
  rw [← hlines]
  refine ⟨htoList, ?_, ?_, ?_, ?_, ?_, hfull, fun hsingle => ?_⟩
  · simpa using hcut.line_ne_nil
  · simpa using hends
  · intro line hline
    rw [← List.map_tail, ← List.map_tail, List.map_map] at hline
    obtain ⟨q, hq, rfl⟩ := List.mem_map.mp hline
    obtain ⟨p, word, hbegins, -⟩ := hlater q hq
    simpa using hbegins.head?_ne_space
  · rw [← hindented]
    simp
  · rw [words, ← splitWords_levelSpaces, List.map_eq_nil_iff, List.map_eq_nil_iff,
      List.map_eq_nil_iff]
    exact hcut.pieces_eq_nil_iff hlevelled hends
  · have hws : ∀ w ∈ splitWords isBlank text.toList, IsWord isBlank w :=
      fun _ => isWord_of_mem_splitWords
    have htext : text.toList = joinWith ' ' (splitWords isBlank text.toList) := by
      have hletters := congrArg String.toList hsingle
      rw [unwords, String.toList_ofList, words, List.map_map] at hletters
      simpa [Function.comp_def] using hletters.symm
    have hself : levelSpaces text.toList = text.toList := by
      refine levelSpaces_eq_self ?_
      rw [htext]
      exact eq_space_of_mem_joinWith hws
    rw [hself] at hcut
    rw [unwords, htoList, hcut.joinWith_of_words hws htext, String.ofList_toList]

/-- The first line begins with the indent of the text, and a tab and a word that is too long are no
exceptions. -/
theorem wrap_greedy_keeper :
    let text := "  to the\tlighthouse keeper"
    (∀ c ∈ text.toList, isBlank c = true → isAsciiSpace c = true) ∧ (0 : Int) < 6 ∧
      ∃ lead pieces, wrap text 6 = .ok ["  to", "the", "lighthouse", "keeper"] ∧
        IsCut (levelSpaces text.toList) lead pieces ∧
        pieces.map Piece.line = ["  to", "the", "lighthouse", "keeper"].map String.toList ∧
        pieces.IsChain (IsFull 6) ∧ IsIndented 6 (levelSpaces text.toList) := by
  intro text
  have hspace : ∀ c ∈ text.toList, isBlank c = true → isAsciiSpace c = true := by
    have hall : (text.toList.all fun c => !isBlank c || isAsciiSpace c) = true := by
      decide +kernel
    intro c hc hblank
    simpa [hblank] using List.all_eq_true.mp hall c hc
  have hwidth : (0 : Int) < 6 := by decide
  obtain ⟨lines, lead, pieces, hlines, hcut, hpieces, -, -, -, hindented, -, hfull, -⟩ :=
    wrap_greedy hspace hwidth
  have heval : wrap text 6 = .ok ["  to", "the", "lighthouse", "keeper"] := by decide +kernel
  obtain rfl := Except.ok.inj (hlines.symm.trans heval)
  exact ⟨hspace, hwidth, lead, pieces, heval, hcut, hpieces.symm, hfull,
    hindented.mp ⟨"  to", rfl, by decide⟩⟩

end TextAdventure.Text
