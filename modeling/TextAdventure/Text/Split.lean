/-!
# Cutting text at characters

Two ways to cut a list of characters.  `splitWords` keeps the maximal runs free
of separators, so separators in a row count once and none gives an empty piece.
`splitAtEach` cuts at every single separator, so pieces may be empty, and there
is always one more piece than there are separators.

`joinWith_splitAtEach` says that joining the pieces at the separator gives the
text back, and `splitAtEach_joinWith` that pieces free of the separator are
found again.
-/

namespace TextAdventure.Text

/-- Put a character in front of the first piece. -/
def consHead (c : Char) : List (List Char) → List (List Char)
  | [] => [[c]]
  | w :: ws => (c :: w) :: ws

/-- The maximal runs of characters that are no separators. -/
def splitWords (isSeparator : Char → Bool) : List Char → List (List Char)
  | [] => []
  | c :: cs =>
      if isSeparator c then splitWords isSeparator cs
      else if cs.head?.all isSeparator then [c] :: splitWords isSeparator cs
      else consHead c (splitWords isSeparator cs)

/-- The pieces between the separators, empty ones included. -/
def splitAtEach (separator : Char) : List Char → List (List Char)
  | [] => [[]]
  | c :: cs =>
      if c = separator then [] :: splitAtEach separator cs
      else consHead c (splitAtEach separator cs)

/-- The pieces with one separator between each two. -/
def joinWith (separator : Char) : List (List Char) → List Char
  | [] => []
  | [w] => w
  | w :: v :: ws => w ++ separator :: joinWith separator (v :: ws)

@[simp] theorem splitWords_nil (p : Char → Bool) : splitWords p [] = [] := rfl

theorem splitWords_cons_of_separator {p : Char → Bool} {c : Char} (h : p c = true)
    (cs : List Char) : splitWords p (c :: cs) = splitWords p cs := by
  simp [splitWords, h]

theorem splitAtEach_ne_nil (sep : Char) : ∀ cs : List Char, splitAtEach sep cs ≠ []
  | [] => by simp [splitAtEach]
  | c :: cs => by
      by_cases h : c = sep
      · simp [splitAtEach, h]
      · cases hs : splitAtEach sep cs <;> simp [splitAtEach, h, consHead, hs]

theorem joinWith_consHead (sep c : Char) {ws : List (List Char)} (h : ws ≠ []) :
    joinWith sep (consHead c ws) = c :: joinWith sep ws := by
  match ws, h with
  | [w], _ => rfl
  | w :: v :: ws, _ => rfl

/-- Joining the pieces gives the text back. -/
theorem joinWith_splitAtEach (sep : Char) : ∀ cs : List Char,
    joinWith sep (splitAtEach sep cs) = cs
  | [] => rfl
  | c :: cs => by
      have ih := joinWith_splitAtEach sep cs
      have hne := splitAtEach_ne_nil sep cs
      by_cases h : c = sep
      · cases hs : splitAtEach sep cs with
        | nil => exact absurd hs hne
        | cons w ws =>
          rw [hs] at ih
          simp only [splitAtEach, h, if_true, hs, joinWith, List.nil_append, ih]
      · simp only [splitAtEach, h, if_false]
        rw [joinWith_consHead sep c hne, ih]

theorem splitAtEach_of_not_mem (sep : Char) : ∀ w : List Char, sep ∉ w → splitAtEach sep w = [w]
  | [], _ => rfl
  | c :: w, h => by
      have hc : c ≠ sep := fun he => h (by simp [he])
      have hw : sep ∉ w := fun hm => h (List.mem_cons_of_mem _ hm)
      simp [splitAtEach, hc, splitAtEach_of_not_mem sep w hw, consHead]

theorem splitAtEach_append (sep : Char) (rest : List Char) : ∀ w : List Char, sep ∉ w →
    splitAtEach sep (w ++ sep :: rest) = w :: splitAtEach sep rest
  | [], _ => by simp [splitAtEach]
  | c :: w, h => by
      have hc : c ≠ sep := fun he => h (by simp [he])
      have hw : sep ∉ w := fun hm => h (List.mem_cons_of_mem _ hm)
      simp [splitAtEach, hc, splitAtEach_append sep rest w hw, consHead]

/-- Pieces free of the separator are found again. -/
theorem splitAtEach_joinWith (sep : Char) : ∀ ws : List (List Char), ws ≠ [] →
    (∀ w ∈ ws, sep ∉ w) → splitAtEach sep (joinWith sep ws) = ws
  | [w], _, h => splitAtEach_of_not_mem sep w (h w (List.mem_cons_self ..))
  | w :: v :: ws, _, h => by
      rw [joinWith, splitAtEach_append sep _ w (h w (List.mem_cons_self ..)),
        splitAtEach_joinWith sep (v :: ws) (by simp) fun x hx => h x (List.mem_cons_of_mem _ hx)]

end TextAdventure.Text
