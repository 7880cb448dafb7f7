/-!
# Cursors

A cursor stands in a text at one of its characters, or at its end.  It keeps the
characters it has passed, the nearest one first, and the characters ahead of it.
Moving it never changes the text (`text_next`, `text_skipSpace`, `text_advance`).
-/

namespace TextAdventure.Template

/-- The white space of templates: space, tab, carriage return and line feed. -/
def isSpace (c : Char) : Bool := c = ' ' || c = '\t' || c = '\r' || c = '\n'

/-- A place in a text. -/
structure Cursor where
  /-- The characters before the place, the nearest one first. -/
  passed : List Char
  /-- The characters from the place on. -/
  ahead : List Char
deriving DecidableEq, Repr

/-- The cursor at the start of a text. -/
def Cursor.start (text : String) : Cursor := ⟨[], text.toList⟩

/-- The characters of the whole text. -/
def Cursor.text (c : Cursor) : List Char := c.passed.reverse ++ c.ahead

/-- How many characters come before the place. -/
def Cursor.position (c : Cursor) : Nat := c.passed.length

/-- The character at the place, if it is not the end. -/
def Cursor.current (c : Cursor) : Option Char := c.ahead.head?

/-- Move on by one character, or stay at the end. -/
def Cursor.next : Cursor → Cursor
  | ⟨passed, []⟩ => ⟨passed, []⟩
  | ⟨passed, c :: rest⟩ => ⟨c :: passed, rest⟩

/-- Move on by a number of characters. -/
def Cursor.advance : Nat → Cursor → Cursor
  | 0, c => c
  | k + 1, c => Cursor.advance k c.next

/-- Move past the characters of a list that `p` holds of, up to the first that it does not. -/
def Cursor.skipWhile (p : Char → Bool) (passed : List Char) : List Char → Cursor
  | [] => ⟨passed, []⟩
  | c :: rest => if p c then Cursor.skipWhile p (c :: passed) rest else ⟨passed, c :: rest⟩

/-- Move past white space. -/
def Cursor.skipSpace (c : Cursor) : Cursor := Cursor.skipWhile isSpace c.passed c.ahead

/-- A short description of the place. -/
def Cursor.describe (c : Cursor) : String :=
  s!"Scanner<{c.position}/{c.text.length}>"

@[simp] theorem Cursor.text_next (c : Cursor) : c.next.text = c.text := by
  rcases c with ⟨passed, _ | ⟨d, rest⟩⟩ <;> simp [Cursor.next, Cursor.text]

theorem Cursor.text_skipWhile (p : Char → Bool) (passed rest : List Char) :
    (Cursor.skipWhile p passed rest).text = passed.reverse ++ rest := by
  induction rest generalizing passed with
  | nil => rfl
  | cons c rest ih =>
    by_cases h : p c = true
    · simp [Cursor.skipWhile, h, ih]
    · simp [Cursor.skipWhile, h, Cursor.text]

@[simp] theorem Cursor.text_skipSpace (c : Cursor) : c.skipSpace.text = c.text :=
  Cursor.text_skipWhile isSpace c.passed c.ahead

@[simp] theorem Cursor.text_advance (k : Nat) (c : Cursor) : (c.advance k).text = c.text := by
  induction k generalizing c with
  | zero => rfl
  | succ k ih => rw [Cursor.advance, ih, Cursor.text_next]

@[simp] theorem Cursor.ahead_advance (k : Nat) (c : Cursor) :
    (c.advance k).ahead = c.ahead.drop k := by
  induction k generalizing c with
  | zero => rfl
  | succ k ih =>
    rcases c with ⟨passed, _ | ⟨d, rest⟩⟩
    · simp [Cursor.advance, ih, Cursor.next]
    · simp [Cursor.advance, ih, Cursor.next]

/-- The characters before the place and those from it on make up the text. -/
theorem Cursor.position_add_length (c : Cursor) :
    c.position + c.ahead.length = c.text.length := by
  simp [Cursor.position, Cursor.text]

/-- Two cursors in one text are at one place if the same characters are ahead of them. -/
theorem Cursor.eq_of_text {c d : Cursor} (htext : c.text = d.text) (hahead : c.ahead = d.ahead) :
    c = d := by
  rcases c with ⟨passed, ahead⟩
  obtain rfl : ahead = d.ahead := hahead
  have hpassed : passed.reverse = d.passed.reverse := List.append_cancel_right htext
  rw [List.reverse_inj.mp hpassed]

end TextAdventure.Template
