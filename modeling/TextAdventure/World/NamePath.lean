import TextAdventure.Text.Split

/-!
# Name paths

Things are called by a path of words.  Templates and players write the path with
a point between each two words, as in `rusty.metal.door`.

`ofDotted_dotted` says that a path of words without points is read back from its
dotted form, and `dotted_ofDotted` that every text is the dotted form of the path
read from it.
-/

namespace TextAdventure

/-- The words that something is called by. -/
abbrev NamePath := List String

/-- The path that a dotted name stands for. -/
def NamePath.ofDotted (dotted : String) : NamePath :=
  (Text.splitAtEach '.' dotted.toList).map String.ofList

/-- The words of a path with a point between each two. -/
def NamePath.dotted (path : NamePath) : String :=
  String.ofList (Text.joinWith '.' (path.map String.toList))

theorem NamePath.map_toList_ofDotted (dotted : String) :
    (NamePath.ofDotted dotted).map String.toList = Text.splitAtEach '.' dotted.toList := by
  simp [NamePath.ofDotted, Function.comp_def]

/-- Every text is the dotted form of the path read from it. -/
theorem NamePath.dotted_ofDotted (dotted : String) :
    (NamePath.ofDotted dotted).dotted = dotted := by
  rw [NamePath.dotted, NamePath.map_toList_ofDotted, Text.joinWith_splitAtEach,
    String.ofList_toList]

/-- A path of words without points is read back from its dotted form. -/
theorem NamePath.ofDotted_dotted {path : NamePath} (hne : path ≠ [])
    (h : ∀ word ∈ path, '.' ∉ word.toList) : NamePath.ofDotted path.dotted = path := by
  rw [NamePath.ofDotted, NamePath.dotted, String.toList_ofList,
    Text.splitAtEach_joinWith '.' _ (by simpa using hne) (by simpa using h), List.map_map]
  simp [Function.comp_def]

end TextAdventure
