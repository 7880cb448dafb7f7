import TextAdventure.Template.Reader
import TextAdventure.Proofs.Template.Reading

/-!
# Cutting templates into segments

Facts about `readSegments` and `parseWithin` that say how a text is cut, whatever
its segments are.  A text is read if and only if all of its segments are, and a
fault lies as far from the start as there are characters used before it.
-/

namespace TextAdventure.Template

/-! ## Mapped outcomes -/

theorem exceptMap_eq_ok_iff {ε α β : Type} {f : α → β} {x : Except ε α} {b : β} :
    x.map f = .ok b ↔ ∃ a, x = .ok a ∧ f a = b := by
  cases x <;> simp [Except.map]

theorem exceptMap_eq_error_iff {ε α β : Type} {f : α → β} {x : Except ε α} {e : ε} :
    x.map f = .error e ↔ x = .error e := by
  cases x <;> simp [Except.map]

/-! ## Literal runs -/

theorem ends_dropWhile (p : Char → Bool) (rest : List Char) : Ends p (rest.dropWhile p) := by
  induction rest with
  | nil => simp
  | cons c rest ih =>
    cases hc : p c with
    | true => rwa [List.dropWhile_cons_of_pos hc]
    | false => simp [hc]

theorem Ends.append {p : Char → Bool} {rest more : List Char} (h : Ends p rest)
    (h' : Ends p more) : Ends p (rest ++ more) := by
  cases rest with
  | nil => exact h'
  | cons c rest => exact (ends_cons ..).mpr ((ends_cons ..).mp h)

theorem isLiteral_of_ne {c : Char} (h : c ≠ sigil) : isLiteral c = true := by
  simpa [isLiteral] using h

theorem forall_isLiteral_takeWhile {c : Char} (h : c ≠ sigil) (cs : List Char) :
    ∀ d ∈ c :: cs.takeWhile isLiteral, isLiteral d = true :=
  List.forall_mem_cons.mpr ⟨isLiteral_of_ne h, List.all_eq_true.mp List.all_takeWhile⟩

/-- A run of text that ends where literals end is one segment. -/
theorem readSegments_run {limit : Nat} {run rest : List Char} (hne : run ≠ [])
    (hrun : ∀ c ∈ run, isLiteral c = true) (hends : Ends isLiteral rest) :
    readSegments limit (run ++ rest) =
      (readSegments limit rest).map (.literal (String.ofList run) :: ·) := by
  obtain ⟨c, run, rfl⟩ := List.exists_cons_of_ne_nil hne
  obtain ⟨hc, hrun⟩ := List.forall_mem_cons.mp hrun
  have hsigil : c ≠ sigil := by simpa [isLiteral] using hc
  rw [List.cons_append, readSegments_literal limit hsigil, List.dropWhile_append_of_pos hrun,
    List.takeWhile_append_of_pos hrun]
  cases rest with
  | nil => rw [List.dropWhile_nil, List.takeWhile_nil, List.append_nil]
  | cons d rest =>
    have hd : ¬isLiteral d = true := by simpa using hends
    rw [List.dropWhile_cons_of_neg hd, List.takeWhile_cons_of_neg hd, List.append_nil]

/-! ## Trees and segments -/

theorem parseWithin_eq_ok_iff {limit : Nat} {text : String} {n : Node} :
    parseWithin limit text = .ok n ↔
      ∃ segments, readSegments limit text.toList = .ok segments ∧ n = Node.ofSegments segments := by
  unfold parseWithin
  split
  · next e he => simp [he]
  · next segments hs => simp [hs, eq_comm]

theorem parseWithin_eq_error_iff {limit : Nat} {text : String} {e : ParseError} :
    parseWithin limit text = .error e ↔
      ∃ failure, readSegments limit text.toList = .error failure ∧
        e = ⟨failure.fault, text.length - failure.rest.length⟩ := by
  unfold parseWithin
  split
  · next failure hf => simp [hf, eq_comm]
  · next segments hs => simp [hs]

/-- One more segment behind a template is one more sequence. -/
theorem Node.ofSegments_concat (s : Node) (rest : List Node) (t : Node) :
    Node.ofSegments (s :: rest ++ [t]) = .sequence (Node.ofSegments (s :: rest)) t := by
  simp [Node.ofSegments]

end TextAdventure.Template
