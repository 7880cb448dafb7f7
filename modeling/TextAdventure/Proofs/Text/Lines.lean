import TextAdventure.Proofs.Text.Words
import TextAdventure.Text.Lines

/-!
# The lines of an input

Which lines an input has is a relation (`LinesOf`): each line is ended by a line feed, but the
last one need not be.  It determines the lines of every input (`linesOf_iff`).
-/

namespace TextAdventure

open Text

/-- The input consists of the lines.  Each is ended by a line feed, but the last one need not be
unless it is empty. -/
structure LinesOf (input : String) (lines : List String) : Prop where
  /-- No line has a line feed in it. -/
  unbroken : ∀ line ∈ lines, '\n' ∉ line.toList
  /-- The lines make up the input. -/
  covers : input = unlines lines ∨
    ∃ before last, lines = before ++ [last] ∧ last ≠ "" ∧ input = unlines before ++ last

theorem toList_unlines_cons (line : String) (lines : List String) :
    (unlines (line :: lines)).toList = line.toList ++ '\n' :: (unlines lines).toList := by
  simp [unlines]

/-- Lines that are ended by line feeds, and what stands behind the last of them, are the pieces
between the line feeds. -/
theorem splitAtEach_unlines {lines : List String} (h : ∀ line ∈ lines, '\n' ∉ line.toList)
    {last : List Char} (hlast : '\n' ∉ last) :
    splitAtEach '\n' ((unlines lines).toList ++ last) = lines.map String.toList ++ [last] := by
  induction lines with
  | nil => exact splitAtEach_of_not_mem '\n' last hlast
  | cons line lines ih =>
    obtain ⟨hline, hlines⟩ := List.forall_mem_cons.mp h
    rw [toList_unlines_cons, List.append_assoc, List.cons_append,
      splitAtEach_append '\n' _ line.toList hline, ih hlines]
    rfl

theorem LinesOf.inputLines_eq {input : String} {lines : List String} (h : LinesOf input lines) :
    inputLines input = lines := by
  rcases h.covers with rfl | ⟨before, last, rfl, hne, rfl⟩
  · have hsplit := splitAtEach_unlines h.unbroken (List.not_mem_nil)
    rw [List.append_nil] at hsplit
    simp only [inputLines, hsplit, List.getLast?_concat, if_true, List.dropLast_concat,
      map_ofList_map_toList]
  · obtain ⟨hbefore, hlast⟩ := List.forall_mem_append.mp h.unbroken
    have hsplit := splitAtEach_unlines hbefore (hlast last List.mem_cons_self)
    have hsome : some last.toList ≠ some [] := by simpa using hne
    simp only [inputLines, String.toList_append, hsplit, List.getLast?_concat, if_neg hsome]
    rw [← List.map_singleton, ← List.map_append, map_ofList_map_toList]

/-- Every text is made of lines that are ended by line feeds, and of what stands behind the last of
them.  The induction is on the text from its end, so a character belongs to the first line. -/
theorem exists_unlines_append (cs : List Char) : ∃ (lines : List String) (last : List Char),
    (∀ line ∈ lines, '\n' ∉ line.toList) ∧ '\n' ∉ last ∧ cs = (unlines lines).toList ++ last := by
  induction cs with
  | nil => exact ⟨[], [], by simp, by simp, rfl⟩
  | cons c cs ih =>
    obtain ⟨lines, last, hlines, hlast, rfl⟩ := ih
    by_cases hc : c = '\n'
    · refine ⟨"" :: lines, last, List.forall_mem_cons.mpr ⟨by simp, hlines⟩, hlast, ?_⟩
      rw [toList_unlines_cons, hc]
      rfl
    · cases lines with
      | nil => exact ⟨[], c :: last, hlines, by simp [Ne.symm hc, hlast], rfl⟩
      | cons line lines =>
        obtain ⟨hline, hrest⟩ := List.forall_mem_cons.mp hlines
        refine ⟨String.ofList (c :: line.toList) :: lines, last,
          List.forall_mem_cons.mpr ⟨?_, hrest⟩, hlast, ?_⟩
        · rw [String.toList_ofList]
          simp [Ne.symm hc, hline]
        · rw [toList_unlines_cons, toList_unlines_cons, String.toList_ofList]
          rfl

theorem exists_linesOf (input : String) : ∃ lines, LinesOf input lines := by
  obtain ⟨lines, last, hlines, hlast, hinput⟩ := exists_unlines_append input.toList
  have hwhole : input = unlines lines ++ String.ofList last := by
    rw [← String.toList_inj, hinput, String.toList_append, String.toList_ofList]
  by_cases hempty : String.ofList last = ""
  · refine ⟨lines, hlines, .inl ?_⟩
    rw [hwhole, hempty, String.append_empty]
  · have hend : ∀ line ∈ [String.ofList last], '\n' ∉ line.toList := by simpa using hlast
    exact ⟨lines ++ [String.ofList last], List.forall_mem_append.mpr ⟨hlines, hend⟩,
      .inr ⟨lines, _, rfl, hempty, hwhole⟩⟩

theorem linesOf_iff {input : String} {lines : List String} :
    LinesOf input lines ↔ inputLines input = lines := by
  constructor
  · exact LinesOf.inputLines_eq
  · rintro rfl
    obtain ⟨lines, hlines⟩ := exists_linesOf input
    rwa [hlines.inputLines_eq]

end TextAdventure
