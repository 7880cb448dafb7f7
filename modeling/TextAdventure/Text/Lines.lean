import TextAdventure.Text.Split

/-!
# Lines

Texts that are written consist of lines, each ended by a line feed.  In a text that
is read the last line need not be ended.
-/

namespace TextAdventure

/-- Lines, each ended by a line feed. -/
def unlines (lines : List String) : String := String.join (lines.map (· ++ "\n"))

/-- The lines of an input.  They end at line feeds, and a last line without one counts if it is
not empty. -/
def inputLines (input : String) : List String :=
  let pieces := Text.splitAtEach '\n' input.toList
  (if pieces.getLast? = some [] then pieces.dropLast else pieces).map String.ofList

/-! ## Tests -/

example : inputLines "a\n\nb" = ["a", "", "b"] ∧ inputLines "a\n" = ["a"] ∧ inputLines "" = [] := by
  decide +kernel

end TextAdventure
