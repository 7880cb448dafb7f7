import TextAdventure.Command.Grammar
import TextAdventure.Proofs.Text.Words

/-!
# Where things stand in a text

The line and the column of a character are given by what is in front of it: the line
feeds there are counted, and the characters since the last of them (`Place.behind`).
A word stands in a text where a run of characters that are no white space cannot be made
longer on either side (`IsWordIn`), and a text has a list of such words (`AreWords`).
-/

namespace TextAdventure

open Text

/-! ## Places -/

/-- The place behind a text that begins on the first line. -/
def Place.behind (before : List Char) : Place :=
  ⟨before.count '\n' + 1, (before.reverse.takeWhile (· ≠ '\n')).length + 1⟩

/-- The place comes first in a text. -/
def Place.IsBefore (p q : Place) : Prop := p.line < q.line ∨ p.line = q.line ∧ p.column < q.column

@[simp] theorem Place.behind_nil : Place.behind [] = Place.first := rfl

theorem Place.behind_concat (before : List Char) (c : Char) :
    Place.behind (before ++ [c]) = (Place.behind before).after c := by
  by_cases hc : c = '\n'
  · simp [Place.behind, Place.after, hc]
  · simp [Place.behind, Place.after, hc]

theorem Place.IsBefore.trans {p q r : Place} (h : p.IsBefore q) (h' : q.IsBefore r) :
    p.IsBefore r := by
  unfold IsBefore at *
  omega

theorem Place.isBefore_after (p : Place) (c : Char) : p.IsBefore (p.after c) := by
  unfold IsBefore Place.after
  split
  · exact .inl (Nat.lt_succ_self _)
  · exact .inr ⟨rfl, Nat.lt_succ_self _⟩

theorem Place.isBefore_behind (before : List Char) {cs : List Char} (hcs : cs ≠ []) :
    (Place.behind before).IsBefore (Place.behind (before ++ cs)) := by
  induction cs generalizing before with
  | nil => exact absurd rfl hcs
  | cons c cs ih =>
    have hstep := Place.isBefore_after (Place.behind before) c
    rw [← Place.behind_concat] at hstep
    rw [List.append_cons]
    cases cs with
    | nil => rwa [List.append_nil]
    | cons d ds => exact hstep.trans (ih (before ++ [c]) (List.cons_ne_nil d ds))

/-- What is not in the first part stands behind it. -/
theorem exists_append_of_not_mem {as rest front after : List Char} {c : Char}
    (h : as ++ rest = front ++ c :: after) (hc : c ∉ as) :
    ∃ middle, front = as ++ middle ∧ rest = middle ++ c :: after := by
  rcases List.append_eq_append_iff.mp h with ⟨middle, hfront, hrest⟩ | ⟨tail, has, htail⟩
  · exact ⟨middle, hfront, hrest⟩
  · cases tail with
    | nil => exact ⟨[], by rw [has, List.append_nil, List.append_nil], htail.symm⟩
    | cons d tail =>
      obtain ⟨rfl, -⟩ := List.cons.inj htail
      rw [has] at hc
      exact absurd (List.mem_append_right front (List.mem_cons_self ..)) hc

/-! ## Words where they stand -/

/-- The text is empty or ends with white space. -/
def EndsApart (cs : List Char) : Prop := ∀ c ∈ cs.getLast?, isBlank c = true

@[simp] theorem endsApart_nil : EndsApart [] := by simp [EndsApart]

@[simp] theorem endsApart_concat (cs : List Char) (c : Char) :
    EndsApart (cs ++ [c]) ↔ isBlank c = true := by simp [EndsApart]

theorem not_endsApart_append (before : List Char) {cs : List Char} (h : IsWord isBlank cs) :
    ¬ EndsApart (before ++ cs) := by
  intro happart
  rw [EndsApart, List.getLast?_append, List.getLast?_eq_some_getLast h.1, Option.some_or] at happart
  have hlast := happart _ (Option.mem_some_self _)
  rw [h.2 _ (List.getLast_mem h.1)] at hlast
  cases hlast

/-- A word of the text, with what is in front of it and behind it. -/
structure IsWordIn (text before word after : List Char) : Prop where
  whole : text = before ++ (word ++ after)
  isWord : IsWord isBlank word
  apart_before : EndsApart before
  apart_after : StartsApart isBlank after

theorem IsWordIn.rest_eq {before rest front word after : List Char}
    (h : IsWordIn (before ++ rest) (before ++ front) word after) :
    rest = front ++ (word ++ after) := by
  have hwhole := h.whole
  rwa [List.append_assoc, List.append_cancel_left_eq] at hwhole

theorem IsWordIn.exists_letter {text before word after : List Char}
    (h : IsWordIn text before word after) :
    ∃ c cs, text = before ++ c :: cs ∧ isBlank c = false := by
  obtain ⟨c, cs, rfl⟩ := List.exists_cons_of_ne_nil h.isWord.1
  exact ⟨c, cs ++ after, h.whole, h.isWord.2 c (List.mem_cons_self ..)⟩

/-! ## The words of a text -/

/-- What a token is, whatever terminal matches it: its characters and their place. -/
def Token.word (t : Token) : String × Place := (t.text, t.place)

/-- These are the words that stand in `rest`, with `before` in front of it: each of them with its
place, and one behind the other. -/
structure AreWords (before rest : List Char) (ws : List (String × Place)) : Prop where
  mem_iff : ∀ w, w ∈ ws ↔ ∃ front word after,
    IsWordIn (before ++ rest) (before ++ front) word after ∧
      w = (String.ofList word, Place.behind (before ++ front))
  ascending : ws.Pairwise fun v w => v.2.IsBefore w.2

theorem AreWords.nil (before : List Char) : AreWords before [] [] where
  mem_iff t := by
    simp only [List.not_mem_nil, false_iff]
    intro ⟨front, word, after, hin, _⟩
    have hnil := List.append_eq_nil_iff.mp hin.rest_eq.symm
    exact hin.isWord.1 (List.append_eq_nil_iff.mp hnil.2).1
  ascending := .nil

/-- White space in front is no part of a word. -/
theorem AreWords.blank {before rest : List Char} {c : Char} {ws : List (String × Place)}
    (h : AreWords (before ++ [c]) rest ws) (hc : isBlank c = true) :
    AreWords before (c :: rest) ws where
  mem_iff t := by
    rw [h.mem_iff]
    simp only [← List.append_cons]
    constructor
    · intro ⟨front, word, after, hin, ht⟩
      exact ⟨c :: front, word, after, hin, ht⟩
    · intro ⟨front, word, after, hin, ht⟩
      cases front with
      | nil =>
        have hstarts := hin.isWord.not_startsApart after
        rw [← List.nil_append (word ++ after), ← hin.rest_eq, startsApart_cons] at hstarts
        exact absurd hc hstarts
      | cons d front =>
        obtain ⟨rfl, -⟩ := List.cons.inj hin.rest_eq
        exact ⟨front, word, after, hin, ht⟩
  ascending := h.ascending

theorem AreWords.blanks {before lead rest : List Char} {ws : List (String × Place)}
    (h : AreWords (before ++ lead) rest ws) (hlead : ∀ c ∈ lead, isBlank c = true) :
    AreWords before (lead ++ rest) ws := by
  induction lead generalizing before with
  | nil => rwa [List.append_nil] at h
  | cons c lead ih =>
    obtain ⟨hc, hrest⟩ := List.forall_mem_cons.mp hlead
    rw [List.append_cons] at h
    exact (ih h hrest).blank hc

/-- A word in front is the first one. -/
theorem AreWords.word {before word rest : List Char} {ws : List (String × Place)}
    (h : AreWords (before ++ word) rest ws) (hbefore : EndsApart before)
    (hword : IsWord isBlank word) (hrest : StartsApart isBlank rest) :
    AreWords before (word ++ rest)
      ((String.ofList word, Place.behind before) :: ws) where
  mem_iff t := by
    rw [List.mem_cons, h.mem_iff]
    simp only [List.append_assoc]
    constructor
    · intro ht
      rcases ht with rfl | ⟨front, w, after, hin, rfl⟩
      · refine ⟨[], word, rest, ⟨?_, hword, ?_, hrest⟩, ?_⟩
        · rw [List.append_nil]
        · rwa [List.append_nil]
        · rw [List.append_nil]
      · exact ⟨word ++ front, w, after, hin, rfl⟩
    · intro ⟨front, w, after, hin, ht⟩
      rcases List.append_eq_append_iff.mp hin.rest_eq with
        ⟨middle, rfl, -⟩ | ⟨tail, hsplit, -⟩
      · exact .inr ⟨middle, w, after, hin, ht⟩
      · cases front with
        | nil =>
          -- Nothing is in front of either word.
          have hsame : w = word :=
            hin.isWord.eq_of_append_eq hword hin.apart_after hrest hin.rest_eq.symm
          rw [List.append_nil, hsame] at ht
          exact .inl ht
        | cons d front =>
          have hletters : IsWord isBlank (d :: front) := ⟨List.cons_ne_nil d front, fun x hx =>
            hword.2 x (hsplit ▸ List.mem_append_left tail hx)⟩
          exact absurd hin.apart_before (not_endsApart_append before hletters)
  ascending := by
    refine List.pairwise_cons.mpr ⟨?_, h.ascending⟩
    intro u hu
    obtain ⟨front, w, after, hin, rfl⟩ := (h.mem_iff u).mp hu
    rw [List.append_assoc]
    exact Place.isBefore_behind before (List.append_ne_nil_of_left_ne_nil hword.1 front)

end TextAdventure
