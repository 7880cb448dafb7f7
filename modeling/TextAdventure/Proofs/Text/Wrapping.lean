import TextAdventure.Proofs.Text.Chunks

/-!
# Lines cut out of a text

The lines of a wrapped text are cut out of it one after the other (`IsCut`): what stands
before the first line, between two lines and after the last one is white space, and
something stands between any two.  So no word is lost (`IsCut.splitWords_eq`).

A pass of the loop takes chunks for a line and may leave out one blank chunk on each side.
A gap between two lines is not empty because of the turns that spaces and other chunks
take: a line that keeps its last chunk ends with other characters, so that spaces follow,
and these do not begin a line (`Wraps.isCut`).
-/

namespace TextAdventure.Text

/-! ## Cuts -/

/-- A line, and what stands between it and the next one. -/
structure Piece where
  line : List Char
  gap : List Char

/-- The text is `lead` and the lines with their gaps, in this order.  Only white space is no line,
and there is some between two lines. -/
structure IsCut (text lead : List Char) (pieces : List Piece) : Prop where
  whole : text = lead ++ pieces.flatMap fun p => p.line ++ p.gap
  lead_blank : ∀ c ∈ lead, isBlank c = true
  gap_blank : ∀ p ∈ pieces, ∀ c ∈ p.gap, isBlank c = true
  gap_ne_nil : ∀ p ∈ pieces.dropLast, p.gap ≠ []
  line_ne_nil : ∀ p ∈ pieces, p.line ≠ []

variable {text lead : List Char} {pieces : List Piece}

theorem IsCut.of_blank (h : ∀ c ∈ text, isBlank c = true) : IsCut text text [] :=
  ⟨by simp, h, by simp, by simp, by simp⟩

theorem IsCut.append_left (h : IsCut text lead pieces) {g : List Char}
    (hg : ∀ c ∈ g, isBlank c = true) : IsCut (g ++ text) (g ++ lead) pieces where
  whole := by rw [h.whole, List.append_assoc]
  lead_blank := List.forall_mem_append.mpr ⟨hg, h.lead_blank⟩
  gap_blank := h.gap_blank
  gap_ne_nil := h.gap_ne_nil
  line_ne_nil := h.line_ne_nil

/-- A line in front of a text that is cut. -/
theorem IsCut.cons (h : IsCut text lead pieces) {line g d : List Char} (hline : line ≠ [])
    (hg : ∀ c ∈ g, isBlank c = true) (hd : ∀ c ∈ d, isBlank c = true)
    (hgap : pieces ≠ [] → d ++ lead ≠ []) :
    IsCut (g ++ (line ++ (d ++ text))) g (⟨line, d ++ lead⟩ :: pieces) where
  whole := by
    rw [h.whole]
    simp only [List.flatMap_cons, List.append_assoc]
  lead_blank := hg
  gap_blank := List.forall_mem_cons.mpr ⟨List.forall_mem_append.mpr ⟨hd, h.lead_blank⟩, h.gap_blank⟩
  gap_ne_nil := by
    cases pieces with
    | nil => simp
    | cons p ps =>
      rw [List.dropLast_cons_cons]
      exact List.forall_mem_cons.mpr ⟨hgap (List.cons_ne_nil _ _), h.gap_ne_nil⟩
  line_ne_nil := List.forall_mem_cons.mpr ⟨hline, h.line_ne_nil⟩

/-- The words of the lines are the words of the text. -/
theorem IsCut.splitWords_eq (h : IsCut text lead pieces) :
    splitWords isBlank text = (pieces.map Piece.line).flatMap (splitWords isBlank) := by
  induction pieces generalizing text lead with
  | nil =>
    have hwords := splitWords_separators h.lead_blank []
    rw [h.whole]
    exact hwords
  | cons p ps ih =>
    obtain ⟨rfl, hlead, hgap, hne, hline⟩ := h
    rw [List.forall_mem_cons] at hgap hline
    have hrest : IsCut (p.gap ++ ps.flatMap fun q => q.line ++ q.gap) p.gap ps := by
      refine ⟨rfl, hgap.1, hgap.2, fun q hq => hne q ?_, hline.2⟩
      cases ps with
      | nil => simp at hq
      | cons r rs => exact List.mem_cons_of_mem _ hq
    have hstarts : StartsApart isBlank (p.gap ++ ps.flatMap fun q => q.line ++ q.gap) := by
      cases hp : p.gap with
      | nil =>
        cases ps with
        | nil => exact startsApart_nil
        | cons r rs => exact absurd hp (hne p (List.mem_cons_self ..))
      | cons c cs => exact (startsApart_cons ..).mpr (hgap.1 c (by simp [hp]))
    rw [splitWords_separators hlead, List.flatMap_cons, List.append_assoc,
      splitWords_append _ hstarts, ih hrest, List.map_cons, List.flatMap_cons]

/-! ## What a pass of the loop leaves out -/

/-- There is a first chunk, and it is blank. -/
def StartsBlank (cs : List (List Char)) : Prop := ∃ c ∈ cs.head?, isBlankChunk c = true

theorem isBlankChunk_of_isSpaces {chunk : List Char} (h : IsSpaces chunk) :
    isBlankChunk chunk = true := by
  rw [isBlankChunk, List.all_eq_true]
  intro c hc
  rw [h c hc, isBlank_space]

theorem isBlank_of_mem_flatten {cs : List (List Char)} (h : ∀ c ∈ cs, isBlankChunk c = true) :
    ∀ c ∈ cs.flatten, isBlank c = true := by
  intro c hc
  obtain ⟨chunk, hchunk, hmem⟩ := List.mem_flatten.mp hc
  exact List.all_eq_true.mp (h chunk hchunk) c hmem

theorem flatten_ne_nil {cs : List (List Char)} (h : ∀ c ∈ cs, c ≠ []) (hne : cs ≠ []) :
    cs.flatten ≠ [] := by
  obtain ⟨c, hc⟩ := List.exists_mem_of_ne_nil cs hne
  exact List.flatten_ne_nil_iff.mpr ⟨c, hc, h c hc⟩

/-- Before a line only blank chunks are left out, and a first blank one is if a line was written
before. -/
theorem lineStart_split (isFirst : Bool) (cs : List (List Char)) :
    ∃ dropped, dropped ++ lineStart isFirst cs = cs ∧ (∀ c ∈ dropped, isBlankChunk c = true) ∧
      (isFirst = false → StartsBlank cs → dropped ≠ []) := by
  cases isFirst with
  | true => exact ⟨[], rfl, by simp, by simp⟩
  | false =>
    cases cs with
    | nil => exact ⟨[], rfl, by simp, by simp [StartsBlank]⟩
    | cons c cs =>
      cases hc : isBlankChunk c with
      | true => exact ⟨[c], by simp [lineStart, dropBlankFirst, hc], by simpa using hc, by simp⟩
      | false => exact ⟨[], by simp [lineStart, dropBlankFirst, hc], by simp,
          by simp [StartsBlank, hc]⟩

/-- After a line only a blank chunk is left out, and a blank one is. -/
theorem dropBlankLast_split (cs : List (List Char)) :
    ∃ dropped, dropBlankLast cs ++ dropped = cs ∧ (∀ c ∈ dropped, isBlankChunk c = true) ∧
      (dropped = [] → ∀ c ∈ cs.getLast?, isBlankChunk c = false) := by
  rcases List.eq_nil_or_concat cs with rfl | ⟨front, c, rfl⟩
  · exact ⟨[], rfl, by simp, by simp⟩
  · cases hc : isBlankChunk c with
    | true => exact ⟨[c], by simp [dropBlankLast, hc], by simpa using hc, by simp⟩
    | false => exact ⟨[], by simp [dropBlankLast, hc], by simp, by simpa using hc⟩

/-- A blank chunk follows one that is not. -/
theorem Alternate.startsBlank {as bs : List (List Char)} (h : Alternate (as ++ bs))
    (has : as ≠ []) (hlast : ∀ c ∈ as.getLast?, isBlankChunk c = false) (hbs : bs ≠ []) :
    StartsBlank bs := by
  obtain ⟨b, later, rfl⟩ := List.exists_cons_of_ne_nil hbs
  have ha := List.getLast?_eq_some_getLast has
  have hletters : ¬ IsSpaces (as.getLast has) := by
    intro hspaces
    have hblank := hlast _ ha
    rw [isBlankChunk_of_isSpaces hspaces] at hblank
    cases hblank
  exact ⟨b, rfl, isBlankChunk_of_isSpaces (h.isSpaces_next ha rfl hletters)⟩

/-! ## The loop -/

/-- What a pass makes of the chunks.  It leaves out the blank chunks `before`, takes `kept` and
`after` for a line, and writes `kept` of these.  A first blank chunk is left out if a line was
written before, and where none is left out after the line, spaces follow. -/
structure IsPass (width : Nat) (isFirst : Bool) (cs before kept after rest : List (List Char)) :
    Prop where
  start_ne_nil : lineStart isFirst cs ≠ []
  start : before ++ lineStart isFirst cs = cs
  taken : takeLine width (lineStart isFirst cs) = (kept ++ after, rest)
  written : dropBlankLast (kept ++ after) = kept
  before_blank : ∀ c ∈ before, isBlankChunk c = true
  after_blank : ∀ c ∈ after, isBlankChunk c = true
  before_ne_nil : isFirst = false → StartsBlank cs → before ≠ []
  rest_starts : after = [] → rest ≠ [] → StartsBlank rest

theorem exists_isPass {width : Nat} {isFirst : Bool} {cs line rest : List (List Char)}
    (h : Alternate cs) (hstart : lineStart isFirst cs ≠ [])
    (hline : takeLine width (lineStart isFirst cs) = (line, rest)) :
    ∃ before after, IsPass width isFirst cs before (dropBlankLast line) after rest := by
  obtain ⟨before, hbefore, hbeforeBlank, hstarts⟩ := lineStart_split isFirst cs
  obtain ⟨after, hafter, hafterBlank, hlast⟩ := dropBlankLast_split line
  have htaken := takeLine_append width (lineStart isFirst cs)
  have hne := takeLine_ne_nil width hstart
  rw [hline] at htaken hne
  refine ⟨before, after, hstart, hbefore, by rw [hafter, hline], by rw [hafter], hbeforeBlank,
    hafterBlank, hstarts, fun hnone hrest => ?_⟩
  rw [← hbefore, ← htaken] at h
  exact h.of_append_right.startsBlank hne (hlast hnone) hrest

section

variable {width : Nat} {isFirst : Bool} {cs before kept after rest : List (List Char)}

theorem IsPass.lineStart_eq (h : IsPass width isFirst cs before kept after rest) :
    lineStart isFirst cs = kept ++ (after ++ rest) := by
  have htaken := takeLine_append width (lineStart isFirst cs)
  rw [h.taken, List.append_assoc] at htaken
  exact htaken.symm

theorem IsPass.whole (h : IsPass width isFirst cs before kept after rest) :
    before ++ (kept ++ (after ++ rest)) = cs := by
  rw [← h.lineStart_eq, h.start]

theorem IsPass.alternate_rest (h : IsPass width isFirst cs before kept after rest)
    (hcs : Alternate cs) : Alternate rest := by
  rw [← h.whole] at hcs
  exact hcs.of_append_right.of_append_right.of_append_right

theorem IsPass.flatten_before_ne_nil (h : IsPass width isFirst cs before kept after rest)
    (hcs : ∀ c ∈ cs, c ≠ []) (hlater : isFirst = false) (hfirst : StartsBlank cs) :
    before.flatten ≠ [] := by
  rw [← h.whole] at hcs
  exact flatten_ne_nil (List.forall_mem_append.mp hcs).1 (h.before_ne_nil hlater hfirst)

/-- A pass that writes no line leaves everything out. -/
theorem IsPass.cut_of_empty (h : IsPass width isFirst cs before [] after rest)
    (hcut : IsCut rest.flatten lead pieces) :
    IsCut cs.flatten (before.flatten ++ (after.flatten ++ lead)) pieces := by
  rw [← h.whole, List.nil_append, List.flatten_append, List.flatten_append]
  exact (hcut.append_left (isBlank_of_mem_flatten h.after_blank)).append_left
    (isBlank_of_mem_flatten h.before_blank)

/-- A pass that writes a line cuts it out of the text. -/
theorem IsPass.cut_of_written (h : IsPass width isFirst cs before kept after rest)
    (hcs : ∀ c ∈ cs, c ≠ []) (hkept : kept ≠ []) (hcut : IsCut rest.flatten lead pieces)
    (hpieces : pieces ≠ [] → rest ≠ []) (hlead : StartsBlank rest → lead ≠ []) :
    IsCut cs.flatten before.flatten (⟨kept.flatten, after.flatten ++ lead⟩ :: pieces) := by
  rw [← h.whole] at hcs ⊢
  simp only [List.forall_mem_append] at hcs
  obtain ⟨-, hkeptNe, hafterNe, -⟩ := hcs
  simp only [List.flatten_append]
  refine hcut.cons (flatten_ne_nil hkeptNe hkept) (isBlank_of_mem_flatten h.before_blank)
    (isBlank_of_mem_flatten h.after_blank) fun hmore => ?_
  by_cases hnone : after = []
  · exact List.append_ne_nil_of_right_ne_nil _ (hlead (h.rest_starts hnone (hpieces hmore)))
  · exact List.append_ne_nil_of_left_ne_nil (flatten_ne_nil hafterNe hnone) _

end

/-- What all passes make of the chunks: what stands before the first line, and the lines with what
stands behind each. -/
inductive Wraps (width : Nat) : Bool → List (List Char) → List Char → List Piece → Prop where
  /-- No chunk is left for a line. -/
  | finished {isFirst : Bool} {cs : List (List Char)} (none_left : lineStart isFirst cs = []) :
      Wraps width isFirst cs cs.flatten []
  /-- A pass writes no line. -/
  | skipped {isFirst : Bool} {cs before after rest : List (List Char)} {lead : List Char}
      {pieces : List Piece} (pass : IsPass width isFirst cs before [] after rest)
      (later : Wraps width isFirst rest lead pieces) :
      Wraps width isFirst cs (before.flatten ++ (after.flatten ++ lead)) pieces
  /-- A pass writes a line. -/
  | written {isFirst : Bool} {cs before kept after rest : List (List Char)} {lead : List Char}
      {pieces : List Piece} (pass : IsPass width isFirst cs before kept after rest)
      (kept_ne_nil : kept ≠ []) (later : Wraps width false rest lead pieces) :
      Wraps width isFirst cs before.flatten (⟨kept.flatten, after.flatten ++ lead⟩ :: pieces)

/-- The loop goes through passes. -/
theorem exists_wraps (width : Nat) (isFirst : Bool) {cs : List (List Char)} (h : Alternate cs) :
    ∃ lead pieces, Wraps width isFirst cs lead pieces ∧
      pieces.map Piece.line = wrapChunks width isFirst cs := by
  fun_induction wrapChunks width isFirst cs with
  | case1 isFirst cs hstart => exact ⟨_, [], .finished hstart, rfl⟩
  | case2 isFirst cs hstart line hempty ih =>
    obtain ⟨before, after, hpass⟩ := exists_isPass h hstart (rfl : _ = (line.1, line.2))
    obtain ⟨lead, pieces, hlater, hlines⟩ := ih (hpass.alternate_rest h)
    rw [hempty] at hpass
    exact ⟨_, pieces, .skipped hpass hlater, hlines⟩
  | case3 isFirst cs hstart line hwritten ih =>
    obtain ⟨before, after, hpass⟩ := exists_isPass h hstart (rfl : _ = (line.1, line.2))
    obtain ⟨lead, pieces, hlater, hlines⟩ := ih (hpass.alternate_rest h)
    exact ⟨_, _, .written hpass hwritten hlater, by rw [List.map_cons, hlines]⟩

theorem IsCut.pieces_eq_nil (h : IsCut [] lead pieces) : pieces = [] := by
  refine List.eq_nil_iff_forall_not_mem.mpr fun p hp => h.line_ne_nil p hp ?_
  have hpieces := (List.append_eq_nil_iff.mp h.whole.symm).2
  exact (List.append_eq_nil_iff.mp (List.flatMap_eq_nil_iff.mp hpieces p hp)).1

/-- Passes cut lines out of the chunks.  Where a line was written before and the next chunk is
blank, the next line does not begin at once. -/
theorem Wraps.isCut {width : Nat} {isFirst : Bool} {cs : List (List Char)}
    (h : Wraps width isFirst cs lead pieces) (hcs : Alternate cs) :
    IsCut cs.flatten lead pieces ∧ (isFirst = false → StartsBlank cs → lead ≠ []) := by
  induction h with
  | @finished isFirst cs hstart =>
    obtain ⟨dropped, hdropped, hblank, hstarts⟩ := lineStart_split isFirst cs
    rw [hstart, List.append_nil] at hdropped
    subst hdropped
    refine ⟨.of_blank (isBlank_of_mem_flatten hblank), fun hlater hfirst => ?_⟩
    exact flatten_ne_nil hcs.ne_nil (hstarts hlater hfirst)
  | skipped hpass _ ih =>
    -- No line is written, so all that the pass took stands before the next line.
    refine ⟨hpass.cut_of_empty (ih (hpass.alternate_rest hcs)).1, fun hlater hfirst => ?_⟩
    exact List.append_ne_nil_of_left_ne_nil
      (hpass.flatten_before_ne_nil hcs.ne_nil hlater hfirst) _
  | @written _ _ _ _ _ rest _ pieces hpass hkept _ ih =>
    obtain ⟨hcut, hlead⟩ := ih (hpass.alternate_rest hcs)
    -- A gap is needed only before another line, and then there are chunks left for it.
    have hpieces : pieces ≠ [] → rest ≠ [] := by
      rintro hne rfl
      exact hne hcut.pieces_eq_nil
    exact ⟨hpass.cut_of_written hcs.ne_nil hkept hcut hpieces (hlead rfl),
      hpass.flatten_before_ne_nil hcs.ne_nil⟩

/-- The lines are cut out of the chunks. -/
theorem wrapChunks_cut (width : Nat) (isFirst : Bool) {cs : List (List Char)} (h : Alternate cs) :
    ∃ lead pieces, IsCut cs.flatten lead pieces ∧
      pieces.map Piece.line = wrapChunks width isFirst cs ∧
      (isFirst = false → StartsBlank cs → lead ≠ []) := by
  obtain ⟨lead, pieces, hwraps, hlines⟩ := exists_wraps width isFirst h
  obtain ⟨hcut, hlead⟩ := hwraps.isCut h
  exact ⟨lead, pieces, hcut, hlines, hlead⟩

/-! ## The width of a line -/

theorem length_flatten_fill_le (room : Nat) (cs : List (List Char)) :
    (fill room cs).1.flatten.length ≤ room := by
  induction cs generalizing room with
  | nil => exact Nat.zero_le _
  | cons c cs ih =>
    rw [fill]
    split
    · next hfits =>
      have hrest := ih (room - c.length)
      rw [List.flatten_cons, List.length_append]
      omega
    · exact Nat.zero_le _

/-- A line fits, or it is one chunk. -/
theorem takeLine_fits (width : Nat) (cs : List (List Char)) :
    (takeLine width cs).1.flatten.length ≤ width ∨ ∃ c, (takeLine width cs).1 = [c] := by
  have hfits := length_flatten_fill_le width cs
  unfold takeLine
  split
  · exact .inr ⟨_, rfl⟩
  · exact .inl hfits

/-- What is kept of a line fits, or it is one chunk that is not blank. -/
theorem dropBlankLast_takeLine_fits (width : Nat) (cs : List (List Char)) :
    (dropBlankLast (takeLine width cs).1).flatten.length ≤ width ∨
      ∃ c ∈ cs, isBlankChunk c = false ∧ dropBlankLast (takeLine width cs).1 = [c] := by
  obtain ⟨dropped, hdropped, -⟩ := dropBlankLast_split (takeLine width cs).1
  rcases takeLine_fits width cs with hfits | ⟨c, hc⟩
  · refine .inl (Nat.le_trans ?_ hfits)
    rw [← congrArg List.flatten hdropped, List.flatten_append, List.length_append]
    exact Nat.le_add_right _ _
  · have hmem : c ∈ cs := by
      rw [← takeLine_append width cs, hc]
      exact List.mem_cons_self ..
    rw [hc]
    cases hblank : isBlankChunk c with
    | true => exact .inl (by simp [dropBlankLast, hblank])
    | false => exact .inr ⟨c, hmem, hblank, by simp [dropBlankLast, hblank]⟩

theorem mem_of_mem_lineStart {isFirst : Bool} {cs : List (List Char)} {c : List Char}
    (h : c ∈ lineStart isFirst cs) : c ∈ cs := by
  obtain ⟨dropped, hdropped, -⟩ := lineStart_split isFirst cs
  rw [← hdropped]
  exact List.mem_append_right _ h

theorem mem_of_mem_takeLine {width : Nat} {cs : List (List Char)} {c : List Char}
    (h : c ∈ (takeLine width cs).2) : c ∈ cs := by
  rw [← takeLine_append width cs]
  exact List.mem_append_right _ h

/-- Every line fits, or it is one chunk that is not blank. -/
theorem fits_of_mem_wrapChunks {width : Nat} {isFirst : Bool} {cs : List (List Char)}
    {line : List Char} (h : line ∈ wrapChunks width isFirst cs) :
    line.length ≤ width ∨ line ∈ cs ∧ isBlankChunk line = false := by
  fun_induction wrapChunks width isFirst cs with
  | case1 isFirst cs hstart => cases h
  | case2 isFirst cs hstart taken hempty ih =>
    exact (ih h).imp_right fun hchunk =>
      ⟨mem_of_mem_lineStart (mem_of_mem_takeLine hchunk.1), hchunk.2⟩
  | case3 isFirst cs hstart taken hwritten ih =>
    rcases List.mem_cons.mp h with rfl | hlater
    · rcases dropBlankLast_takeLine_fits width (lineStart isFirst cs) with
        hfits | ⟨c, hc, hletters, hkept⟩
      · exact .inl hfits
      · refine .inr ?_
        rw [hkept, List.flatten_singleton]
        exact ⟨mem_of_mem_lineStart hc, hletters⟩
    · exact (ih hlater).imp_right fun hchunk =>
        ⟨mem_of_mem_lineStart (mem_of_mem_takeLine hchunk.1), hchunk.2⟩

/-! ## Wrapping -/

/-- A line that does not fit is a word of the text, and one that spaces do not cut. -/
theorem fits_of_mem_wrapped {width : Nat} {cs line : List Char}
    (h : line ∈ wrapChunks width true (chunks cs)) :
    line.length ≤ width ∨ ' ' ∉ line ∧ line ∈ splitWords (· = ' ') cs := by
  refine (fits_of_mem_wrapChunks h).imp_right fun ⟨hmem, hletters⟩ => ?_
  have hspace : ' ' ∉ line := by
    refine ((alternate_chunks cs).uniform line hmem).resolve_left fun hspaces => ?_
    rw [isBlankChunk_of_isSpaces hspaces] at hletters
    cases hletters
  refine ⟨hspace, ?_⟩
  rw [splitWords_eq_filter_chunks]
  exact List.mem_filter.mpr ⟨hmem, by simpa using hspace⟩

theorem words_ofList (cs : List Char) :
    words (String.ofList cs) = (splitWords isBlank cs).map String.ofList := by
  rw [words, String.toList_ofList]

/-- The lines of a text are cut out of the text with level spaces, with white space between any two
and none of the words lost.  A line is no longer than the width unless it is a single word.  There
are lines for every width but those that no line can have. -/
theorem wrap_cuts (text : String) (width : Int) :
    (width ≤ 0 → wrap text width = .error ⟨width⟩) ∧
      (0 < width → ∃ lines lead pieces, wrap text width = .ok lines ∧
        IsCut (levelSpaces text.toList) lead pieces ∧
        lines.map String.toList = pieces.map Piece.line ∧
        (∀ line ∈ lines, (line.length : Int) ≤ width ∨
          ' ' ∉ line.toList ∧
            line.toList ∈ splitWords (· = ' ') (levelSpaces text.toList)) ∧
        lines.flatMap words = words text) := by
  refine ⟨fun hwidth => if_pos hwidth, fun hwidth => ?_⟩
  have halternate := alternate_chunks (levelSpaces text.toList)
  obtain ⟨lead, pieces, hcut, hlines, -⟩ := wrapChunks_cut width.toNat true halternate
  rw [flatten_chunks] at hcut
  refine ⟨_, lead, pieces, if_neg (Int.not_le.mpr hwidth), hcut, ?_, ?_, ?_⟩
  · rw [List.map_map, ← hlines]
    exact (List.map_congr_left fun line _ => String.toList_ofList).trans (List.map_id _)
  · intro line hline
    obtain ⟨letters, hletters, rfl⟩ := List.mem_map.mp hline
    rw [String.toList_ofList, String.length_ofList]
    exact (fits_of_mem_wrapped hletters).imp_left fun hfits => by omega
  · have hwords := hcut.splitWords_eq
    rw [splitWords_levelSpaces, hlines] at hwords
    rw [List.flatMap_map, words, hwords, List.map_flatMap]
    exact List.flatMap_congr fun line _ => words_ofList line

/-- A no-break space may end a line, and a long word is one. -/
theorem wrap_cuts_lighthouse : (0 : Int) < 6 ∧ ∃ lead pieces,
    wrap " to\tthe \u00a0 lighthouse" 6 = .ok [" to", "the \u00a0", "lighthouse"] ∧
      IsCut (levelSpaces " to\tthe \u00a0 lighthouse".toList) lead pieces ∧
      pieces.map Piece.line = [" to", "the \u00a0", "lighthouse"].map String.toList ∧
      [" to", "the \u00a0", "lighthouse"].flatMap words = ["to", "the", "lighthouse"] := by
  obtain ⟨lines, lead, pieces, hlines, hcut, hpieces, -, hwords⟩ :=
    (wrap_cuts " to\tthe \u00a0 lighthouse" 6).2 (by decide)
  have heval : wrap " to\tthe \u00a0 lighthouse" 6 =
      .ok [" to", "the \u00a0", "lighthouse"] := by decide +kernel
  obtain rfl := Except.ok.inj (hlines.symm.trans heval)
  exact ⟨by decide, lead, pieces, heval, hcut, hpieces.symm, hwords.trans (by decide)⟩

end TextAdventure.Text
