/-!
# Runs of code points

A property of characters is given by a table: the runs of consecutive code
points that have it, in increasing order.  `covers` looks a code point up in
such a table and stops at the first run that starts beyond it.

`covers_iff` says what the look-up means: in an ascending table a code point is
covered if and only if it lies in one of the runs.
-/

namespace TextAdventure.Text

/-- The code points from `first` to `last`, both included. -/
structure Run where
  /-- The first code point of the run. -/
  first : Nat
  /-- The last code point of the run. -/
  last : Nat
deriving DecidableEq, Repr

/-- Decide whether a code point lies in a run of the table. -/
def covers : List Run → Nat → Bool
  | [], _ => false
  | r :: rs, n => if n < r.first then false else if n ≤ r.last then true else covers rs n

/-- Decide whether every run starts beyond `bound` and beyond the end of the run before it. -/
def ascendsFrom (bound : Nat) : List Run → Bool
  | [] => true
  | r :: rs => bound ≤ r.first && r.first ≤ r.last && ascendsFrom (r.last + 1) rs

/-- The runs of an ascending table are disjoint and in increasing order. -/
def Ascending (table : List Run) : Prop := ascendsFrom 0 table = true

instance (table : List Run) : Decidable (Ascending table) :=
  inferInstanceAs (Decidable (ascendsFrom 0 table = true))

@[simp] theorem covers_nil (n : Nat) : covers [] n = false := rfl

theorem first_le_of_ascendsFrom {bound : Nat} {table : List Run}
    (h : ascendsFrom bound table = true)
    {r : Run} (hr : r ∈ table) : bound ≤ r.first := by
  induction table generalizing bound with
  | nil => cases hr
  | cons s rs ih =>
    simp only [ascendsFrom, Bool.and_eq_true, decide_eq_true_eq] at h
    cases List.mem_cons.mp hr with
    | inl he => subst he; exact h.1.1
    | inr hr' => have := ih h.2 hr'; omega

theorem covers_iff_of_ascendsFrom {bound : Nat} {table : List Run}
    (h : ascendsFrom bound table = true) (n : Nat) :
    covers table n = true ↔ ∃ r ∈ table, r.first ≤ n ∧ n ≤ r.last := by
  induction table generalizing bound with
  | nil => simp
  | cons s rs ih =>
    simp only [ascendsFrom, Bool.and_eq_true, decide_eq_true_eq] at h
    by_cases hlt : n < s.first
    · simp only [covers, hlt, if_true]
      constructor
      · intro hf; cases hf
      · rintro ⟨r, hr, h1, h2⟩
        cases List.mem_cons.mp hr with
        | inl he => subst he; omega
        | inr hr' => have := first_le_of_ascendsFrom h.2 hr'; omega
    · by_cases hle : n ≤ s.last
      · simp only [covers, hlt, hle, if_false, if_true, true_iff]
        exact ⟨s, List.mem_cons_self .., by omega, hle⟩
      · simp only [covers, hlt, hle, if_false]
        rw [ih h.2]
        constructor
        · rintro ⟨r, hr, h'⟩; exact ⟨r, List.mem_cons_of_mem _ hr, h'⟩
        · rintro ⟨r, hr, h'⟩
          cases List.mem_cons.mp hr with
          | inl he => subst he; omega
          | inr hr' => exact ⟨r, hr', h'⟩

/-- In an ascending table the covered code points are those of the runs. -/
theorem covers_iff {table : List Run} (h : Ascending table) (n : Nat) :
    covers table n = true ↔ ∃ r ∈ table, r.first ≤ n ∧ n ≤ r.last :=
  covers_iff_of_ascendsFrom h n

end TextAdventure.Text
