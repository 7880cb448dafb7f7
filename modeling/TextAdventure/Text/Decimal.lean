import TextAdventure.Text.Blank

/-!
# Whole numbers as users type them

`readInt` reads a whole number: an optional sign and decimal digits, single
underscores allowed between digits, white space allowed around the number.

Digits may come from any script.  A text of ASCII characters alone may have only
the six ASCII spaces around its number; as soon as one other character occurs,
the white space beyond ASCII is allowed too.  A number of more than
`maxDigits` digits is refused.
-/

namespace TextAdventure.Text

/-- The code point of the digit zero of each script with decimal digits, in Unicode 14.
The digits one to nine follow it. -/
def digitZeros : List Nat :=
  [0x30, 0x660, 0x6f0, 0x7c0, 0x966, 0x9e6, 0xa66, 0xae6, 0xb66, 0xbe6, 0xc66, 0xce6, 0xd66,
   0xde6, 0xe50, 0xed0, 0xf20, 0x1040, 0x1090, 0x17e0, 0x1810, 0x1946, 0x19d0, 0x1a80, 0x1a90,
   0x1b50, 0x1bb0, 0x1c40, 0x1c50, 0xa620, 0xa8d0, 0xa900, 0xa9d0, 0xa9f0, 0xaa50, 0xabf0, 0xff10,
   0x104a0, 0x10d30, 0x11066, 0x110f0, 0x11136, 0x111d0, 0x112f0, 0x11450, 0x114d0, 0x11650,
   0x116c0, 0x11730, 0x118e0, 0x11950, 0x11c50, 0x11d50, 0x11da0, 0x16a60, 0x16ac0, 0x16b50,
   0x1d7ce, 0x1d7d8, 0x1d7e2, 0x1d7ec, 0x1d7f6, 0x1e140, 0x1e2f0, 0x1e950, 0x1fbf0]

/-- The value of a decimal digit of any script. -/
def digitValue? (c : Char) : Option Nat :=
  (digitZeros.find? fun z => z ≤ c.toNat && c.toNat ≤ z + 9).map (c.toNat - ·)

/-- The most digits a number may have. -/
def maxDigits : Nat := 4300

/-- The characters of a number text with digits and white space beyond ASCII replaced by those of
ASCII.  Any other character beyond ASCII ends the text with a character that no number has. -/
def toAsciiNumber : List Char → List Char
  | [] => []
  | c :: cs =>
      if c.toNat < 127 then c :: toAsciiNumber cs
      else if isBlank c then ' ' :: toAsciiNumber cs
      else match digitValue? c with
        | some d => Char.ofNat (48 + d) :: toAsciiNumber cs
        | none => ['?']

/-- Read digits with single underscores between them.  `value` and `count` are those of the digits
read so far; the flag tells whether a digit must follow. -/
def readDigits (value count : Nat) (due : Bool) : List Char → Option Nat
  | [] => if due || maxDigits < count then none else some value
  | c :: cs =>
      if c.isDigit then readDigits (10 * value + (c.toNat - 48)) (count + 1) false cs
      else if c = '_' && !due then readDigits value count true cs
      else none

/-- Read an optional sign and digits. -/
def readSigned : List Char → Option Int
  | '-' :: cs => (readDigits 0 0 true cs).map fun n => -(n : Int)
  | '+' :: cs => (readDigits 0 0 true cs).map Int.ofNat
  | cs => (readDigits 0 0 true cs).map Int.ofNat

/-- The characters without the white space that may stand around a number. -/
def trimNumber (cs : List Char) : List Char :=
  ((cs.dropWhile isAsciiSpace).reverse.dropWhile isAsciiSpace).reverse

/-- The whole number a text stands for. -/
def readInt (text : String) : Option Int :=
  readSigned (trimNumber (toAsciiNumber text.toList))

/-! ## Tests -/

example : readInt " +1_0\n" = some 10 := by decide +kernel
example : readInt "\u00a0-٣\u3000" = some (-3) := by decide +kernel
example : readInt "1__0" = none ∧ readInt "_1" = none ∧ readInt "1_" = none := by decide +kernel
example : readInt "- 1" = none ∧ readInt "" = none ∧ readInt "0x1" = none := by decide +kernel

end TextAdventure.Text
