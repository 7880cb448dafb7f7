import TextAdventure.Text.Blank

/-!
# Wrapped text

Text is broken into lines of at most a given width.  Tabs are expanded to
multiples of eight columns, and every white space character of ASCII becomes a
space.  The text is then a list of *chunks*, runs of spaces and runs of other
characters by turns, and each line takes as many chunks as fit.  A chunk longer
than the width stands on a line of its own.

Blank chunks do not begin a line, except for the first line, and do not end
one.  A chunk is blank if it consists of white space, so also if it consists of
spaces that are no ASCII ones.  At each end of a line one chunk at most is left
out, and a line with no chunk left is not written.
-/

namespace TextAdventure.Text

/-! ## Tabs, spaces and chunks -/

/-- The distance between two tab stops. -/
def tabWidth : Nat := 8

/-- Replace each tab by the spaces up to the next tab stop.  Columns count from the last line feed
or carriage return. -/
def expandTabs (column : Nat) : List Char → List Char
  | [] => []
  | c :: cs =>
      if c = '\t' then
        List.replicate (tabWidth - column % tabWidth) ' ' ++
          expandTabs (column + (tabWidth - column % tabWidth)) cs
      else if c = '\n' ∨ c = '\r' then c :: expandTabs 0 cs
      else c :: expandTabs (column + 1) cs

/-- A text with tabs expanded and every separating character turned into a space. -/
def levelSpaces (cs : List Char) : List Char :=
  (expandTabs 0 cs).map fun c => if isAsciiSpace c then ' ' else c

/-- The runs of spaces and the runs of other characters, in the order of the text. -/
def chunks : List Char → List (List Char)
  | [] => []
  | c :: cs =>
      if cs.head?.any fun d => (d = ' ') = (c = ' ') then consHead c (chunks cs)
      else [c] :: chunks cs

/-- Decide whether a chunk is blank. -/
def isBlankChunk (chunk : List Char) : Bool := chunk.all isBlank

/-! ## Lines -/

/-- The chunks that fit in `room` columns, and the chunks after them. -/
def fill (room : Nat) : List (List Char) → List (List Char) × List (List Char)
  | [] => ([], [])
  | c :: cs =>
      if c.length ≤ room then (c :: (fill (room - c.length) cs).1, (fill (room - c.length) cs).2)
      else ([], c :: cs)

/-- The chunks of the next line, and the chunks after it.  A first chunk that is too long for any
line is taken alone. -/
def takeLine (width : Nat) (cs : List (List Char)) : List (List Char) × List (List Char) :=
  match fill width cs, cs with
  | ([], _), c :: rest => ([c], rest)
  | taken, _ => taken

/-- The chunks without a blank one in front. -/
def dropBlankFirst : List (List Char) → List (List Char)
  | [] => []
  | c :: cs => if isBlankChunk c then cs else c :: cs

/-- The chunks without a blank one at the end. -/
def dropBlankLast (cs : List (List Char)) : List (List Char) :=
  if cs.getLast?.any isBlankChunk then cs.dropLast else cs

theorem fill_append (room : Nat) (cs : List (List Char)) :
    (fill room cs).1 ++ (fill room cs).2 = cs := by
  induction cs generalizing room with
  | nil => rfl
  | cons c cs ih =>
    by_cases h : c.length ≤ room
    · simp [fill, h, ih]
    · simp [fill, h]

/-- A line and what follows it are the chunks. -/
theorem takeLine_append (width : Nat) (cs : List (List Char)) :
    (takeLine width cs).1 ++ (takeLine width cs).2 = cs := by
  have h := fill_append width cs
  unfold takeLine
  split
  · next heq => simp
  · exact h

/-- As long as chunks are left a line takes one. -/
theorem takeLine_ne_nil (width : Nat) {cs : List (List Char)} (h : cs ≠ []) :
    (takeLine width cs).1 ≠ [] := by
  cases cs with
  | nil => exact absurd rfl h
  | cons c rest =>
    unfold takeLine
    split
    · simp
    · next hne =>
      intro he
      exact hne (fill width (c :: rest)).2 c rest (Prod.ext he rfl) rfl

theorem length_takeLine_lt (width : Nat) {cs : List (List Char)} (h : cs ≠ []) :
    (takeLine width cs).2.length < cs.length := by
  have happ := congrArg List.length (takeLine_append width cs)
  have hpos := List.length_pos_iff.mpr (takeLine_ne_nil width h)
  rw [List.length_append] at happ
  omega

/-- The chunks that a line may take: all of them on the first line, and no blank one in front on a
later line. -/
def lineStart (isFirst : Bool) (cs : List (List Char)) : List (List Char) :=
  if isFirst then cs else dropBlankFirst cs

theorem length_lineStart_le (isFirst : Bool) (cs : List (List Char)) :
    (lineStart isFirst cs).length ≤ cs.length := by
  cases isFirst with
  | true => exact Nat.le_refl _
  | false =>
    cases cs with
    | nil => exact Nat.le_refl _
    | cons c cs =>
      by_cases h : isBlankChunk c = true <;> simp [lineStart, dropBlankFirst, h]

/-- The lines made of the chunks.  `isFirst` tells whether no line has been written before. -/
def wrapChunks (width : Nat) (isFirst : Bool) (cs : List (List Char)) : List (List Char) :=
  if _h : lineStart isFirst cs = [] then []
  else
    let line := takeLine width (lineStart isFirst cs)
    if dropBlankLast line.1 = [] then wrapChunks width isFirst line.2
    else (dropBlankLast line.1).flatten :: wrapChunks width false line.2
termination_by cs.length
decreasing_by
  all_goals
    exact Nat.lt_of_lt_of_le (length_takeLine_lt width _h) (length_lineStart_le isFirst cs)

/-! ## Wrapping a text -/

/-- A width that no line can have. -/
structure WidthError where
  /-- The width asked for. -/
  width : Int
deriving DecidableEq, Repr

/-- What is said about an impossible width. -/
def WidthError.message (e : WidthError) : String := s!"invalid width {e.width} (must be > 0)"

/-- The width of a line where none is asked for. -/
def defaultWidth : Nat := 72

/-- The lines of a text, each at most `width` long unless it is a single word. -/
def wrap (text : String) (width : Int) : Except WidthError (List String) :=
  if width ≤ 0 then .error ⟨width⟩
  else .ok ((wrapChunks width.toNat true (chunks (levelSpaces text.toList))).map String.ofList)

end TextAdventure.Text
