import Mathlib.Algebra.Group.Nat.Defs
import TextAdventure.Text.Quoted

/-!
# Quoted text read back

A quoted text tells which text it quotes (`quote_injective`).  The reason is that every
character can be read back from the front of what it is quoted as, whatever comes behind
it (`unquoteChar_quoteChar`): the character behind a backslash tells which of the escapes
it is, and so how many hexadecimal digits belong to it.

What stands in a quoted text is printable (`isPrintable_of_mem_quote`), so no line ends
inside of it.
-/

namespace TextAdventure.Text

/-! ## Hexadecimal numbers -/

/-- The value of a lower-case hexadecimal digit. -/
def hexValue (c : Char) : Nat := if c.toNat < 97 then c.toNat - 48 else c.toNat - 87

/-- The number that hexadecimal digits stand for, the lowest one last. -/
def hexNumber (digits : List Char) : Nat := digits.foldl (fun n c => 16 * n + hexValue c) 0

theorem hexValue_hexDigit : ∀ d, d < 16 → hexValue (hexDigit d) = d := by decide

theorem hexNumber_hexDigits (width n : Nat) :
    hexNumber (hexDigits width n) = n % 16 ^ width := by
  induction width generalizing n with
  | zero => simp [hexDigits, hexNumber, Nat.mod_one]
  | succ width ih =>
    have hlast : hexValue (hexDigit (n % 16)) = n % 16 :=
      hexValue_hexDigit _ (Nat.mod_lt _ (by decide))
    have hfront : hexNumber (hexDigits width (n / 16)) = n / 16 % 16 ^ width := ih (n / 16)
    rw [hexNumber] at hfront
    rw [hexDigits, hexNumber, List.foldl_append, hfront, List.foldl_cons, List.foldl_nil, hlast,
      Nat.pow_succ, Nat.mul_comm (16 ^ width) 16, Nat.mod_mul]
    omega

theorem mem_hexDigits {width n : Nat} {c : Char} (h : c ∈ hexDigits width n) :
    ∃ d, d < 16 ∧ c = hexDigit d := by
  induction width generalizing n with
  | zero => cases h
  | succ width ih =>
    rcases List.mem_append.mp h with hfront | hlast
    · exact ih hfront
    · exact ⟨n % 16, Nat.mod_lt _ (by decide), List.mem_singleton.mp hlast⟩

/-! ## Reading back -/

/-- How many hexadecimal digits follow the letter of an escape. -/
def escapeWidth (letter : Char) : Option Nat :=
  if letter = 'x' then some 2
  else if letter = 'u' then some 4
  else if letter = 'U' then some 8
  else none

/-- Read what an escape stands for behind its backslash. -/
def unescape : List Char → Option (Char × List Char)
  | [] => none
  | c :: rest =>
      match escapeWidth c with
      | some width => some (Char.ofNat (hexNumber (rest.take width)), rest.drop width)
      | none =>
          if c = 'n' then some ('\n', rest)
          else if c = 'r' then some ('\r', rest)
          else if c = 't' then some ('\t', rest)
          else some (c, rest)

/-- Read the first character of a quoted text back, and give it with what is left. -/
def unquoteChar : List Char → Option (Char × List Char)
  | [] => none
  | c :: rest => if c = '\\' then unescape rest else some (c, rest)

theorem unquoteChar_hexDigits {letter c : Char} {width : Nat} (h : escapeWidth letter = some width)
    (hsmall : c.toNat < 16 ^ width) (rest : List Char) :
    unquoteChar ('\\' :: letter :: (hexDigits width c.toNat ++ rest)) = some (c, rest) := by
  have hdigits : (hexDigits width c.toNat ++ rest).take width = hexDigits width c.toNat :=
    List.take_left' (length_hexDigits ..)
  have hrest : (hexDigits width c.toNat ++ rest).drop width = rest :=
    List.drop_left' (length_hexDigits ..)
  simp only [unquoteChar, if_true, unescape, h, hdigits, hrest, hexNumber_hexDigits,
    Nat.mod_eq_of_lt hsmall, Char.ofNat_toNat]

theorem unquoteChar_hexEscape (c : Char) (rest : List Char) :
    unquoteChar (hexEscape c.toNat ++ rest) = some (c, rest) := by
  have hlimit : c.toNat < 16 ^ 8 := by
    have hvalid : c.toNat < 0xd800 ∨ 0xdfff < c.toNat ∧ c.toNat < 0x110000 := c.valid
    omega
  unfold hexEscape
  repeat' split
  · next hbyte => exact unquoteChar_hexDigits (by decide) hbyte rest
  · next hpair => exact unquoteChar_hexDigits (by decide) hpair rest
  · exact unquoteChar_hexDigits (by decide) hlimit rest

/-- A character is read back from the front of what it is quoted as. -/
theorem unquoteChar_quoteChar {mark : Char} (hmark : mark = '"' ∨ mark = '\'') (c : Char)
    (rest : List Char) : unquoteChar (quoteChar mark c ++ rest) = some (c, rest) := by
  unfold quoteChar
  repeat' split
  · next hself =>
    rcases hself with rfl | rfl
    · rcases hmark with rfl | rfl <;> rfl
    · rfl
  · next hc => subst hc; rfl
  · next hc => subst hc; rfl
  · next hc => subst hc; rfl
  · next hself _ _ _ _ =>
    have hbackslash : c ≠ '\\' := fun hc => hself (.inr hc)
    simp [unquoteChar, hbackslash]
  · exact unquoteChar_hexEscape c rest

theorem flatMap_quoteChar_injective {mark : Char} (hmark : mark = '"' ∨ mark = '\'')
    {cs ds : List Char} (h : cs.flatMap (quoteChar mark) = ds.flatMap (quoteChar mark)) :
    cs = ds := by
  induction cs generalizing ds with
  | nil =>
    cases ds with
    | nil => rfl
    | cons d ds =>
      have hread := unquoteChar_quoteChar hmark d (ds.flatMap (quoteChar mark))
      rw [← List.flatMap_cons, ← h] at hread
      cases hread
  | cons c cs ih =>
    have hread := unquoteChar_quoteChar hmark c (cs.flatMap (quoteChar mark))
    rw [← List.flatMap_cons, h] at hread
    cases ds with
    | nil => cases hread
    | cons d ds =>
      rw [List.flatMap_cons, unquoteChar_quoteChar hmark, Option.some.injEq, Prod.mk.injEq] at hread
      rw [hread.1, ih hread.2.symm]

/-- Different texts are quoted differently. -/
theorem quote_injective {s t : String} (h : quote s = quote t) : s = t := by
  have hchars : quoteChars s.toList = quoteChars t.toList := String.ofList_injective h
  obtain ⟨hmark, hrest⟩ := List.cons.inj hchars
  rw [← hmark] at hrest
  have hbody := List.append_cancel_right hrest
  exact String.toList_inj.mp (flatMap_quoteChar_injective (quoteMark_eq _) hbody)

/-! ## What stands in a quoted text -/

theorem isPrintable_hexDigit : ∀ d, d < 16 → isPrintable (hexDigit d) = true := by decide

theorem isPrintable_of_mem_hexEscape {n : Nat} {c : Char} (h : c ∈ hexEscape n) :
    isPrintable c = true := by
  have hdigits : ∀ (letter : Char) (width : Nat), isPrintable letter = true →
      c ∈ '\\' :: letter :: hexDigits width n → isPrintable c = true := by
    intro letter width hletter hc
    rcases List.mem_cons.mp hc with rfl | hc
    · decide
    · rcases List.mem_cons.mp hc with rfl | hc
      · exact hletter
      · obtain ⟨d, hd, rfl⟩ := mem_hexDigits hc
        exact isPrintable_hexDigit d hd
  unfold hexEscape at h
  repeat' split at h
  · exact hdigits 'x' 2 (by decide) h
  · exact hdigits 'u' 4 (by decide) h
  · exact hdigits 'U' 8 (by decide) h

theorem isPrintable_of_mem_quoteChar {mark c d : Char} (hmark : mark = '"' ∨ mark = '\'')
    (h : d ∈ quoteChar mark c) : isPrintable d = true := by
  have hmarked : isPrintable mark = true := by rcases hmark with rfl | rfl <;> decide
  have hpair : ∀ letter : Char, isPrintable letter = true → d ∈ ['\\', letter] →
      isPrintable d = true := by
    intro letter hletter hd
    rcases List.mem_cons.mp hd with rfl | hd
    · decide
    · rw [List.mem_singleton.mp hd]
      exact hletter
  unfold quoteChar at h
  repeat' split at h
  · next hself =>
    refine hpair c ?_ h
    rcases hself with rfl | rfl
    · exact hmarked
    · decide
  · exact hpair 'n' (by decide) h
  · exact hpair 'r' (by decide) h
  · exact hpair 't' (by decide) h
  · next hprintable =>
    rw [List.mem_singleton.mp h]
    exact hprintable
  · exact isPrintable_of_mem_hexEscape h

/-- Everything in a quoted text is printable. -/
theorem isPrintable_of_mem_quote {text : String} {c : Char} (h : c ∈ (quote text).toList) :
    isPrintable c = true := by
  have hmark := quoteMark_eq text.toList
  have hmarked : isPrintable (quoteMark text.toList) = true := by
    rcases hmark with hq | hq <;> rw [hq] <;> decide
  rw [quote, String.toList_ofList] at h
  rcases List.mem_cons.mp h with rfl | h
  · exact hmarked
  · rcases List.mem_append.mp h with hbody | hend
    · obtain ⟨d, -, hd⟩ := List.mem_flatMap.mp hbody
      exact isPrintable_of_mem_quoteChar hmark hd
    · rw [List.mem_singleton.mp hend]
      exact hmarked

/-! ## Ends of lines -/

/-- The code points that end a line: the line feed to the carriage return, three information
separators, the next line, and the line and paragraph separators. -/
def lineBreakRuns : List Run := [⟨0xa, 0xd⟩, ⟨0x1c, 0x1e⟩, ⟨0x85, 0x85⟩, ⟨0x2028, 0x2029⟩]

/-- Decide whether a character ends a line. -/
def isLineBreak (c : Char) : Bool := covers lineBreakRuns c.toNat

theorem isPrintable_of_isLineBreak {c : Char} (h : isLineBreak c = true) :
    isPrintable c = false := by
  have hwithin : ∀ r ∈ lineBreakRuns, ∃ s ∈ hiddenRuns, s.first ≤ r.first ∧ r.last ≤ s.last := by
    decide +kernel
  obtain ⟨r, hr, hfirst, hlast⟩ := (covers_iff (by decide) c.toNat).mp h
  obtain ⟨s, hs, hbelow, habove⟩ := hwithin r hr
  have hcovers : covers hiddenRuns c.toNat = true :=
    (covers_iff ascending_hiddenRuns c.toNat).mpr ⟨s, hs, by omega, by omega⟩
  rw [isPrintable, hcovers]
  rfl

/-- No line ends at a printable character. -/
theorem isLineBreak_of_isPrintable {c : Char} (h : isPrintable c = true) :
    isLineBreak c = false := by
  cases hbreak : isLineBreak c with
  | false => rfl
  | true =>
    rw [isPrintable_of_isLineBreak hbreak] at h
    cases h

end TextAdventure.Text
