import TextAdventure.Text.Runs
import TextAdventure.Text.Split

/-!
# White space

The white space of Unicode, together with the four information separators
U+001C to U+001F.  `words` cuts a text into its maximal runs of other
characters, and `unwords` puts words together again.
-/

namespace TextAdventure.Text

/-- The code points that count as white space. -/
def blankRuns : List Run :=
  [⟨0x9, 0xd⟩, ⟨0x1c, 0x20⟩, ⟨0x85, 0x85⟩, ⟨0xa0, 0xa0⟩, ⟨0x1680, 0x1680⟩, ⟨0x2000, 0x200a⟩,
   ⟨0x2028, 0x2029⟩, ⟨0x202f, 0x202f⟩, ⟨0x205f, 0x205f⟩, ⟨0x3000, 0x3000⟩]

/-- Decide whether a character is white space. -/
def isBlank (c : Char) : Bool := covers blankRuns c.toNat

/-- Decide whether a character is the space or one of the ASCII characters that move on by lines or
columns: tab, line feed, vertical tab, form feed and carriage return. -/
def isAsciiSpace (c : Char) : Bool := c = ' ' || (9 ≤ c.toNat && c.toNat ≤ 13)

/-- The words of a text: its maximal runs without white space. -/
def words (text : String) : List String :=
  (splitWords isBlank text.toList).map String.ofList

/-- Words with one space between each two. -/
def unwords (ws : List String) : String :=
  String.ofList (joinWith ' ' (ws.map String.toList))

theorem ascending_blankRuns : Ascending blankRuns := by decide

end TextAdventure.Text
