import TextAdventure.Proofs.Template.Openings

/-!
# Progress

Reading an expression at a cursor has one of three outcomes.  The text is malformed, at the
cursor or further on; or the calls in it are nested beyond the limit; or the cursor has moved
on, and what it has passed over and the next character determine the expression.

Running out of room is none of the errors of a text.  Whether it happens depends on the text
alone, though: some beginning of what is ahead leaves more calls open than the limit
(`Cursor.readExpression_overflow_iff`).  Parsing reports it as a malformed text.
-/

namespace TextAdventure.Template

/-! ## Where the cursor goes -/

/-- White space in front of an expression changes nothing. -/
theorem Cursor.readExpression_skipSpace (limit : Nat) (c : Cursor) :
    c.skipSpace.readExpression limit = c.readExpression limit := by
  have hread : Reader.start.read limit c.skipSpace.ahead = Reader.start.read limit c.ahead := by
    obtain ⟨passed, ahead⟩ := c
    show Reader.start.read limit (Cursor.skipWhile isSpace passed ahead).ahead = _
    induction ahead generalizing passed with
    | nil => rfl
    | cons d rest ih =>
      rw [Cursor.skipWhile]
      split
      · next hblank =>
        rw [ih (d :: passed)]
        exact (Reader.read_expecting_space limit [] hblank rest).symm
      · rfl
  cases hc : c.readExpression limit with
  | ok p =>
    obtain ⟨htext, hok⟩ := Cursor.readExpression_eq_ok_iff.mp hc
    exact Cursor.readExpression_eq_ok_iff.mpr ⟨by rw [htext, Cursor.text_skipSpace], hread ▸ hok⟩
  | error e =>
    unfold Cursor.readExpression at hc ⊢
    rw [hread, Cursor.text_skipSpace]
    cases h : Reader.start.read limit c.ahead with
    | ok p => rw [h] at hc; cases hc
    | error e' => rw [h] at hc; cases e' <;> exact hc

/-- An expression overflows if and only if some beginning of what is ahead leaves more calls open
than the limit. -/
theorem Cursor.readExpression_overflow_iff {limit : Nat} {c : Cursor} :
    c.readExpression limit = .error .overflow ↔
      ∃ p k, p <+: c.ahead ∧ ExpressionStart p k ∧ limit < k :=
  Cursor.readExpression_eq_overflow_iff.trans read_overflow_iff

/-- A malformed text is malformed at the cursor or between it and the end. -/
theorem Cursor.readExpression_position {limit : Nat} {c : Cursor} {e : ParseError}
    (h : c.readExpression limit = .error (.malformed e)) :
    c.position ≤ e.position ∧ e.position ≤ c.text.length := by
  unfold Cursor.readExpression at h
  split at h
  · cases h
  · next fault rest hread =>
    cases h
    have hsuffix : rest <:+ c.ahead := (readsExpression_iff.mpr hread).advances
    have hshorter := hsuffix.length_le
    have hlength := c.position_add_length
    constructor
    · show c.position ≤ c.text.length - rest.length
      omega
    · exact Nat.sub_le ..
  · cases h

/-- The cursor moves on in the text. -/
theorem Cursor.readExpression_advances {limit : Nat} {c d : Cursor} {n : Node}
    (h : c.readExpression limit = .ok (n, d)) :
    d.text = c.text ∧ c.position < d.position ∧ d.position ≤ c.text.length := by
  obtain ⟨htext, hread⟩ := Cursor.readExpression_eq_ok_iff.mp h
  have hshorter : d.ahead.length < c.ahead.length := (readsExpression_iff.mpr hread).advances.2
  have hlength := c.position_add_length
  have hlength' := d.position_add_length
  rw [htext] at hlength'
  exact ⟨htext, by omega, by omega⟩

/-- What is ahead of a cursor is the text from its place on. -/
theorem Cursor.getElem?_ahead (c : Cursor) (k : Nat) :
    c.ahead[k]? = c.text[c.position + k]? := by
  rw [Cursor.text, List.getElem?_append_right (by simp [Cursor.position])]
  simp [Cursor.position]

theorem Cursor.position_advance {c : Cursor} {used rest : List Char}
    (h : c.ahead = used ++ rest) : (c.advance used.length).position = c.position + used.length := by
  have hbefore := c.position_add_length
  have hbehind := (c.advance used.length).position_add_length
  rw [h, List.length_append] at hbefore
  rw [Cursor.text_advance, Cursor.ahead_advance, h, List.drop_left] at hbehind
  omega

/-- A text that is the same up to the character behind `used` begins with `used` and has the same
next character. -/
theorem exists_append_of_getElem? {cs used rest : List Char}
    (h : ∀ k ≤ used.length, cs[k]? = (used ++ rest)[k]?) :
    ∃ rest', cs = used ++ rest' ∧ rest'.head? = rest.head? := by
  induction used generalizing cs with
  | nil =>
    rw [List.head?_eq_getElem?]
    exact ⟨cs, rfl, List.head?_eq_getElem?.trans (h 0 (Nat.le_refl 0))⟩
  | cons c used ih =>
    cases cs with
    | nil => cases h 0 (Nat.zero_le _)
    | cons d cs =>
      obtain rfl : d = c := Option.some.inj (h 0 (Nat.zero_le _))
      obtain ⟨rest', rfl, hnext⟩ := ih fun k hk => h (k + 1) (Nat.succ_le_succ hk)
      exact ⟨rest', rfl, hnext⟩

/-- An expression depends on the characters from its place to the one behind it. -/
theorem Cursor.readExpression_congr {limit : Nat} {c d c' : Cursor} {n : Node}
    (h : c.readExpression limit = .ok (n, d)) (hplace : c'.position = c.position)
    (hsame : ∀ k, c.position ≤ k → k ≤ d.position → c'.text[k]? = c.text[k]?) :
    ∃ d' : Cursor, c'.readExpression limit = .ok (n, d') ∧ d'.position = d.position := by
  obtain ⟨htext, hread⟩ := Cursor.readExpression_eq_ok_iff.mp h
  obtain ⟨used, hused, hreplace⟩ := Reader.read_replace hread
  have hbehind : d = c.advance used.length := Cursor.eq_of_text
    (by rw [htext, Cursor.text_advance]) (by rw [Cursor.ahead_advance, hused, List.drop_left])
  have hposition : d.position = c.position + used.length := by
    rw [hbehind, Cursor.position_advance hused]
  obtain ⟨rest, hahead, hnext⟩ : ∃ rest, c'.ahead = used ++ rest ∧
      rest.head? = d.ahead.head? := by
    refine exists_append_of_getElem? fun k hk => ?_
    rw [Cursor.getElem?_ahead, hplace, hsame _ (by omega) (by omega), ← hused,
      Cursor.getElem?_ahead]
  refine ⟨c'.advance used.length, Cursor.readExpression_eq_ok_iff.mpr ⟨?_, ?_⟩, ?_⟩
  · exact Cursor.text_advance ..
  · rw [Cursor.ahead_advance, hahead, List.drop_left]
    exact hreplace rest (.inl hnext)
  · rw [Cursor.position_advance hahead, hplace, hposition]

/-! ## Every step -/

end TextAdventure.Template
