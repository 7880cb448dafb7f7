import TextAdventure.Proofs.Template.Segments

/-!
# Where faults are found

A fault is found at the exact place where a text becomes hopeless.  The characters
before it can be completed to a template, since every state of the machine can be
completed.  With the character at the fault they cannot: whatever follows, the same
fault is found at the same place.  A fault at the end of the text is one about the
end, and no other is.

`FaultAt` states these three facts of a failure and the characters used before it.
They hold of the expression that fails (`FaultAt.of_read`), and segments read
before it change nothing (`FaultAt.extend`).
-/

namespace TextAdventure.Template

/-! ## Messages -/

/-- A message that is about the end of the text comes from no other fault. -/
theorem Fault.exists_message_iff {f : Fault} :
    (∃ inside : Construct, f.message = "unexpected end of string in " ++ inside.description) ↔
      ∃ inside, f = .endOfText inside := by
  constructor
  · rintro ⟨inside, h⟩
    cases f with
    | endOfText inside' => exact ⟨inside', rfl⟩
    | unexpected c =>
      -- The two messages part at the twelfth character.
      have hstart : (Fault.unexpected c).message.toList.take 12 =
          ("unexpected end of string in " ++ inside.description).toList.take 12 := by rw [h]
      have hleft : (Fault.unexpected c).message.toList.take 12 = "unexpected c".toList := by
        change ("unexpected character in expression: " ++ String.singleton c).toList.take 12 = _
        rw [String.toList_append]
        exact List.take_append_of_le_length (by decide)
      have hright : ("unexpected end of string in " ++ inside.description).toList.take 12 =
          "unexpected e".toList := by
        rw [String.toList_append]
        exact List.take_append_of_le_length (by decide)
      exact absurd (hleft.symm.trans (hstart.trans hright)) (by decide)
    | tooDeep => cases inside <;> exact absurd h (by decide)
    | nameExpected => cases inside <;> exact absurd h (by decide)
  · rintro ⟨inside, rfl⟩
    exact ⟨inside, rfl⟩

/-! ## Faults of a template -/

/-- The same failure where another text is left. -/
def Failure.before (rest : List Char) : Failure → Failure
  | .overflow _ => .overflow rest
  | .malformed fault _ => .malformed fault rest

@[simp] theorem Failure.rest_before (rest : List Char) (e : Failure) :
    (e.before rest).rest = rest := by
  cases e <;> rfl

@[simp] theorem Failure.fault_before (rest : List Char) (e : Failure) :
    (e.before rest).fault = e.fault := by
  cases e <;> rfl

/-- A failure is exact: it is found where the text becomes hopeless. -/
structure FaultAt (limit : Nat) (used : List Char) (e : Failure) : Prop where
  /-- The characters before the fault begin some template. -/
  viable : ∃ more segments, readSegments limit (used ++ more) = .ok segments
  /-- A fault is found at the end of the text if and only if it is about the end. -/
  atEnd : e.rest = [] ↔ ∃ inside, e.fault = .endOfText inside
  /-- The character at the fault is the fault, whatever follows it. -/
  persists : ∀ c tail, e.rest = c :: tail →
    ∀ tail', readSegments limit (used ++ c :: tail') = .error (e.before (c :: tail'))

theorem FaultAt.of_read {limit : Nat} {cs : List Char} {e : Failure}
    (h : Reader.start.read limit cs = .error e) :
    ∃ used, cs = used ++ e.rest ∧ FaultAt limit (sigil :: used) e := by
  obtain ⟨used, last, hrun, hcs, hend⟩ := Reader.exists_advance_of_read_error h
  refine ⟨used, hcs, ?_, ?_, ?_⟩
  · obtain ⟨more, n, hmore⟩ := last.completable limit
    refine ⟨more, [n], ?_⟩
    rw [← Reader.read_of_advance hrun] at hmore
    rw [List.cons_append, readSegments_of_read hmore, readSegments_nil]
    rfl
  · rcases hend with ⟨c, tail, rfl, -⟩ | ⟨f, c, tail, rfl, hstep⟩ | ⟨f, rfl, hfinish⟩
    · simp [Failure.rest, Failure.fault]
    · refine iff_of_false (by simp [Failure.rest]) ?_
      rintro ⟨inside, rfl⟩
      exact last.step_ne_endOfText limit c inside hstep
    · exact iff_of_true rfl (Reader.finish_eq_error hfinish)
  · intro c tail hrest tail'
    rw [List.cons_append]
    apply readSegments_of_read_error
    rw [Reader.read_of_advance hrun]
    rcases hend with ⟨d, tail'', rfl, hstep⟩ | ⟨f, d, tail'', rfl, hstep⟩ | ⟨f, rfl, -⟩
    · obtain ⟨rfl, -⟩ := List.cons.inj hrest
      exact Reader.read_of_overflow hstep
    · obtain ⟨rfl, -⟩ := List.cons.inj hrest
      exact Reader.read_of_fault hstep
    · cases hrest

/-- Segments before the failing one change nothing. -/
theorem FaultAt.extend {limit : Nat} {used : List Char} {e : Failure} (h : FaultAt limit used e)
    (before : List Char) (f : List Node → List Node)
    (hread : ∀ more, readSegments limit (before ++ (used ++ more)) =
      (readSegments limit (used ++ more)).map f) : FaultAt limit (before ++ used) e := by
  refine ⟨?_, h.atEnd, ?_⟩
  · obtain ⟨more, segments, hmore⟩ := h.viable
    refine ⟨more, f segments, ?_⟩
    rw [List.append_assoc, hread, hmore]
    rfl
  · intro c tail hrest tail'
    rw [List.append_assoc, hread, h.persists c tail hrest tail']
    rfl

/-- Every failure is exact.  Some character is used before it, the sigil of the failing segment at
least. -/
theorem FaultAt.of_readSegments {limit : Nat} {cs : List Char} {e : Failure}
    (h : readSegments limit cs = .error e) :
    ∃ c used, cs = c :: used ++ e.rest ∧ FaultAt limit (c :: used) e := by
  fun_induction readSegments limit cs with
  | case1 => cases h
  | case2 cs e' hread =>
    cases h
    obtain ⟨used, hcs, hfault⟩ := FaultAt.of_read hread
    exact ⟨sigil, used, by rw [List.cons_append, ← hcs], hfault⟩
  | case3 cs n rest hread ih =>
    obtain ⟨c, used, hrest, hfault⟩ := ih (exceptMap_eq_error_iff.mp h)
    obtain ⟨before, hcs, hreplace⟩ := Reader.read_replace hread
    refine ⟨sigil, before ++ c :: used, ?_, ?_⟩
    · rw [hcs, hrest]
      simp
    · apply hfault.extend (sigil :: before) (n :: ·)
      intro more
      have hsame : (c :: used ++ more).head? = rest.head? := by
        rw [hrest]
        rfl
      rw [List.cons_append, readSegments_of_read (hreplace _ (.inl hsame))]
  | case4 c cs hc ih =>
    obtain ⟨d, used, hrest, hfault⟩ := ih (exceptMap_eq_error_iff.mp h)
    refine ⟨c, cs.takeWhile isLiteral ++ d :: used, ?_, ?_⟩
    · rw [List.cons_append, List.append_assoc, ← hrest, List.takeWhile_append_dropWhile]
    · apply hfault.extend (c :: cs.takeWhile isLiteral)
        (.literal (String.ofList (c :: cs.takeWhile isLiteral)) :: ·)
      intro more
      have hd : Ends isLiteral (d :: used ++ more) := by
        have hends := ends_dropWhile isLiteral cs
        rw [hrest] at hends
        exact (ends_cons ..).mpr ((ends_cons ..).mp hends)
      exact readSegments_run (List.cons_ne_nil _ _) (forall_isLiteral_takeWhile hc cs) hd

/-- A fault is reported at the exact place where the text becomes hopeless. -/
theorem parse_error_exact {text : String} {e : ParseError} (h : parse text = .error e) :
    e.position ≤ text.length ∧
      (∃ (longer : String) (n : Node),
        text.toList.take e.position <+: longer.toList ∧ parse longer = .ok n) ∧
      (e.position = text.length ↔ ∃ inside : Construct,
        e.message = "unexpected end of string in " ++ inside.description) ∧
      (e.position < text.length → ∀ other : String,
        text.toList.take (e.position + 1) <+: other.toList → parse other = .error e) := by
  obtain ⟨failure, hfailure, rfl⟩ := parseWithin_eq_error_iff.mp h
  obtain ⟨c, used, hcs, hfault⟩ := FaultAt.of_readSegments hfailure
  have hlength : text.length = (c :: used).length + failure.rest.length := by
    rw [← String.length_toList, hcs, List.length_append]
  have hposition : text.length - failure.rest.length = (c :: used).length := by omega
  simp only [hposition]
  refine ⟨by omega, ?_, ?_, ?_⟩
  · obtain ⟨more, segments, hmore⟩ := hfault.viable
    refine ⟨String.ofList (c :: used ++ more), Node.ofSegments segments, ?_, ?_⟩
    · rw [hcs, List.take_left, String.toList_ofList]
      exact List.prefix_append _ _
    · refine parseWithin_eq_ok_iff.mpr ⟨segments, ?_, rfl⟩
      rwa [String.toList_ofList]
  · rw [ParseError.message, Fault.exists_message_iff, ← hfault.atEnd, ← List.length_eq_zero_iff]
    omega
  · intro hinside other hother
    obtain ⟨d, tail, hrest⟩ := List.exists_cons_of_length_pos (l := failure.rest) (by omega)
    obtain ⟨tail', hother⟩ := hother
    rw [hcs, hrest, List.take_length_add_append, List.take_succ_cons, List.take_zero,
      List.append_assoc, List.singleton_append] at hother
    refine parseWithin_eq_error_iff.mpr ⟨failure.before (d :: tail'), ?_, ?_⟩
    · rw [← hother]
      exact hfault.persists d tail hrest tail'
    · rw [← @String.length_toList other, ← hother, List.length_append, Failure.rest_before,
        Failure.fault_before, Nat.add_sub_cancel]

/-- Nothing that begins with a comma among arguments is a template. -/
theorem parse_error_exact_comma :
    parse "ab#(f ,)" = .error ⟨.unexpected ',', 6⟩ ∧
      ∀ other : String, "ab#(f ,".toList <+: other.toList →
        parse other = .error ⟨.unexpected ',', 6⟩ := by
  have hcomma : parse "ab#(f ,)" = .error ⟨.unexpected ',', 6⟩ := by cbv
  obtain ⟨-, -, -, hpersists⟩ := parse_error_exact hcomma
  exact ⟨hcomma, hpersists (by decide)⟩

end TextAdventure.Template
