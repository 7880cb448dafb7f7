import TextAdventure.Text.Printable

/-!
# Quoted text

How a text is shown inside a message: between two marks, with everything that
cannot be printed escaped.  The mark is the apostrophe, unless the text holds
an apostrophe and no quotation mark.  A backslash and the mark itself get a
backslash in front; line feed, carriage return and tab are written as letters;
any other character that is not printable is written as its code point in two,
four or eight hexadecimal digits, whichever is the first that suffices.
-/

namespace TextAdventure.Text

/-- The mark a text is quoted with. -/
def quoteMark (cs : List Char) : Char :=
  if cs.contains '\'' && !cs.contains '"' then '"' else '\''

/-- The lower-case hexadecimal digit of a value below sixteen. -/
def hexDigit (d : Nat) : Char := Char.ofNat (if d < 10 then 48 + d else 87 + d)

/-- The last `width` hexadecimal digits of a number, the lowest one last. -/
def hexDigits : Nat → Nat → List Char
  | 0, _ => []
  | width + 1, n => hexDigits width (n / 16) ++ [hexDigit (n % 16)]

/-- A code point as an escape of two, four or eight hexadecimal digits. -/
def hexEscape (n : Nat) : List Char :=
  if n < 0x100 then '\\' :: 'x' :: hexDigits 2 n
  else if n < 0x10000 then '\\' :: 'u' :: hexDigits 4 n
  else '\\' :: 'U' :: hexDigits 8 n

/-- One character of a text quoted with `mark`. -/
def quoteChar (mark c : Char) : List Char :=
  if c = mark ∨ c = '\\' then ['\\', c]
  else if c = '\n' then ['\\', 'n']
  else if c = '\r' then ['\\', 'r']
  else if c = '\t' then ['\\', 't']
  else if isPrintable c then [c]
  else hexEscape c.toNat

/-- The characters of a quoted text, marks included. -/
def quoteChars (cs : List Char) : List Char :=
  quoteMark cs :: (cs.flatMap (quoteChar (quoteMark cs)) ++ [quoteMark cs])

/-- A text between marks, with what cannot be printed escaped. -/
def quote (text : String) : String := String.ofList (quoteChars text.toList)

@[simp] theorem length_hexDigits (width n : Nat) : (hexDigits width n).length = width := by
  induction width generalizing n with
  | zero => rfl
  | succ w ih => simp [hexDigits, ih]

theorem quoteMark_eq (cs : List Char) : quoteMark cs = '"' ∨ quoteMark cs = '\'' := by
  unfold quoteMark; split <;> simp

/-! ## Tests -/

example : quote "it's" = "\"it's\"" := by decide +kernel
example : quote "a\\b\n" = "'a\\\\b\\n'" := by decide +kernel
example : quote "'\"" = "'\\'\"'" := by decide +kernel
example : quote "\x00\u00ad\u2028" = "'\\x00\\xad\\u2028'" := by decide +kernel

end TextAdventure.Text
