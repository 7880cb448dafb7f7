import TextAdventure.World.Example
import TextAdventure.Proofs.Template.Canonical
import TextAdventure.Proofs.Template.Concatenation
import TextAdventure.Proofs.Template.Faults
import TextAdventure.Proofs.Template.Rendering

/-!
# Templates joined at a sigil

A sigil ends whatever comes before it: literal text, and a name outside of all
calls.  So when one text is put before another that begins with a sigil, the first
is cut as it would be alone and the second follows (`readSegments_append_sigil`).
The value of the whole is the concatenation of both values, evaluated from left to
right (`evaluate_of_segments_append`).
-/

namespace TextAdventure.Template

/-! ## Cutting -/

/-- A sigil begins a segment, whatever is before it. -/
theorem readSegments_append_sigil {limit : Nat} {cs : List Char} {segments : List Node}
    (h : readSegments limit cs = .ok segments) (more : List Char) :
    readSegments limit (cs ++ sigil :: more) =
      (readSegments limit (sigil :: more)).map (segments ++ ·) := by
  fun_induction readSegments limit cs generalizing segments with
  | case1 =>
    cases h
    rw [List.nil_append]
    cases readSegments limit (sigil :: more) <;> rfl
  | case2 cs e he => cases h
  | case3 cs n rest hread ih =>
    obtain ⟨tail, htail, rfl⟩ := exceptMap_eq_ok_iff.mp h
    obtain ⟨used, rfl, hreplace⟩ := Reader.read_replace hread
    have hbehind : (rest ++ sigil :: more).head? = rest.head? ∨
        Ends isNameChar (rest ++ sigil :: more) := by
      cases rest with
      | nil => exact .inr ((ends_cons ..).mpr (by decide))
      | cons c rest => exact .inl rfl
    have hboth := readSegments_of_read (hreplace _ hbehind)
    rw [List.cons_append, List.append_assoc, hboth, ih htail]
    cases readSegments limit (sigil :: more) <;> rfl
  | case4 c cs hc ih =>
    obtain ⟨tail, htail, rfl⟩ := exceptMap_eq_ok_iff.mp h
    have hends : Ends isLiteral (cs.dropWhile isLiteral ++ sigil :: more) :=
      (ends_dropWhile isLiteral cs).append ((ends_cons ..).mpr (by decide))
    have hsplit : c :: cs ++ sigil :: more =
        c :: cs.takeWhile isLiteral ++ (cs.dropWhile isLiteral ++ sigil :: more) := by
      rw [List.cons_append, List.cons_append, ← List.append_assoc,
        List.takeWhile_append_dropWhile]
    rw [hsplit, readSegments_run (List.cons_ne_nil _ _) (forall_isLiteral_takeWhile hc cs) hends,
      ih htail]
    cases readSegments limit (sigil :: more) <;> rfl

theorem ne_nil_of_readSegments {limit : Nat} {cs : List Char} {segments : List Node}
    (h : readSegments limit cs = .ok segments) (hcs : cs ≠ []) : segments ≠ [] := by
  cases SegmentsText.of_readSegments h with
  | nil => exact absurd rfl hcs
  | cons _ _ => exact List.cons_ne_nil _ _

/-! ## The segments of a tree that is read -/

theorem Node.IsSegment.parts {s : Node} (h : s.IsSegment) : s.parts = [s] := by
  cases h with
  | literal _ _ => rfl
  | expression he => cases he <;> rfl

theorem Node.parts_foldl (rest : List Node) (s : Node) :
    (rest.foldl Node.sequence s).parts = s.parts ++ rest.flatMap Node.parts := by
  induction rest generalizing s with
  | nil => simp
  | cons t rest ih => rw [List.foldl_cons, ih]; simp [Node.parts]

theorem SegmentsText.parts {cs : List Char} {segments : List Node}
    (h : SegmentsText true cs segments) : segments.flatMap Node.parts = segments := by
  induction h with
  | nil => rfl
  | cons hs _ ih => rw [List.flatMap_cons, hs.isSegment.1.parts, ih, List.singleton_append]

/-- Taking the tree of segments apart gives the segments back. -/
theorem segments_ofSegments {segments : List Node}
    (h : segments.flatMap Node.parts = segments) :
    (Node.ofSegments segments).segments = segments := by
  rw [Node.segments_eq_parts]
  cases segments with
  | nil => rfl
  | cons s rest => rw [Node.ofSegments, Node.parts_foldl, ← List.flatMap_cons, h]

theorem exists_sequence_of_append {segments others : List Node} (h : segments ≠ [])
    (h' : others ≠ []) : ∃ l r, Node.ofSegments (segments ++ others) = .sequence l r := by
  obtain ⟨s, rest, rfl⟩ := List.exists_cons_of_ne_nil h
  obtain ⟨front, last, rfl⟩ := (List.eq_nil_or_concat others).resolve_left h'
  rw [List.concat_eq_append, ← List.append_assoc, List.cons_append, Node.ofSegments_concat]
  exact ⟨_, _, rfl⟩

/-! ## Rendering -/

theorem parse_append_sigil {t u : String} {n : Node} (ht : t ≠ "") (hparse : parse t = .ok n)
    (hu : u.toList.head? = some sigil) :
    (∀ e, parse u = .error e → parse (t ++ u) = .error ⟨e.fault, t.length + e.position⟩) ∧
      ∀ m, parse u = .ok m → ∃ l r, parse (t ++ u) = .ok (.sequence l r) ∧
        (Node.sequence l r).segments = n.segments ++ m.segments := by
  obtain ⟨segments, hsegments, rfl⟩ := parseWithin_eq_ok_iff.mp hparse
  obtain ⟨more, hmore⟩ : ∃ more, u.toList = sigil :: more := by
    cases h : u.toList with
    | nil => rw [h] at hu; cases hu
    | cons c more =>
      rw [h, List.head?_cons, Option.some.injEq] at hu
      exact ⟨more, by rw [hu]⟩
  have hboth : readSegments maxOpenCalls (t ++ u).toList =
      (readSegments maxOpenCalls u.toList).map (segments ++ ·) := by
    rw [String.toList_append, hmore, readSegments_append_sigil hsegments]
  constructor
  · intro e he
    obtain ⟨failure, hfailure, rfl⟩ := parseWithin_eq_error_iff.mp he
    have hrest : failure.rest.length ≤ u.length := by
      obtain ⟨c, used, hcs, -⟩ := FaultAt.of_readSegments hfailure
      have hlength := congrArg List.length hcs
      rw [List.length_append, String.length_toList] at hlength
      omega
    refine parseWithin_eq_error_iff.mpr ⟨failure, ?_, ?_⟩
    · rw [hboth, hfailure]
      rfl
    · rw [String.length_append, Nat.add_sub_assoc hrest]
  · intro m hm
    obtain ⟨others, hothers, rfl⟩ := parseWithin_eq_ok_iff.mp hm
    have hread : readSegments maxOpenCalls (t ++ u).toList = .ok (segments ++ others) := by
      rw [hboth, hothers]
      rfl
    have hparts := (SegmentsText.of_readSegments hread).parts
    have hleft := ne_nil_of_readSegments hsegments (by simpa using ht)
    have hright := ne_nil_of_readSegments hothers (by rw [hmore]; exact List.cons_ne_nil _ _)
    obtain ⟨l, r, hlr⟩ := exists_sequence_of_append hleft hright
    refine ⟨l, r, parseWithin_eq_ok_iff.mpr ⟨_, hread, hlr.symm⟩, ?_⟩
    rw [← hlr, segments_ofSegments hparts,
      segments_ofSegments (SegmentsText.of_readSegments hsegments).parts,
      segments_ofSegments (SegmentsText.of_readSegments hothers).parts]

/-- Text without a sigil is one literal, or none. -/
theorem parse_of_not_mem {t : String} (h : sigil ∉ t.toList) :
    parse t = .ok (if t = "" then .empty else .literal t) := by
  refine parseWithin_eq_ok_iff.mpr ?_
  by_cases hempty : t = ""
  · subst hempty
    exact ⟨[], readSegments_nil _, rfl⟩
  · refine ⟨[.literal t], ?_, by rw [if_neg hempty]; rfl⟩
    have hrun : ∀ c ∈ t.toList, isLiteral c = true := fun c hc =>
      isLiteral_of_ne fun heq => h (heq ▸ hc)
    have hne : t.toList ≠ [] := by simpa using hempty
    have hread := @readSegments_run maxOpenCalls _ _ hne hrun (ends_nil _)
    rw [List.append_nil, readSegments_nil, String.ofList_toList] at hread
    exact hread

/-- Rendering is a homomorphism across a sigil.  A text that cannot be read is reported first, and
then the first part of the whole that has no value or one that is no text. -/
theorem render_append_sigil (w : World) :
    (∀ t u n, t ≠ "" → parse t = .ok n → u.toList.head? = some sigil →
      (∀ e, parse u = .error e →
        render w (t ++ u) = .error (.unreadable ⟨e.fault, t.length + e.position⟩)) ∧
      ∀ m, parse u = .ok m →
        (∃ k, parse (t ++ u) = .ok k ∧ k.segments = n.segments ++ m.segments) ∧
        render w (t ++ u) =
          match evaluate w n with
          | .error e => .error (.unevaluable e)
          | .ok (.text before) =>
              match evaluate w m with
              | .error e => .error (.unevaluable e)
              | .ok (.text behind) => .ok (before ++ behind)
              | .ok _ => .error (.unevaluable .notConcatenable)
          | .ok _ => .error (.unevaluable .notConcatenable)) ∧
      (∀ t, sigil ∉ t.toList → render w t = .ok t) ∧
      EvalError.notConcatenable.message = "invalid operand for concatenation" := by
  refine ⟨?_, ?_, rfl⟩
  · intro t u n ht hparse hu
    obtain ⟨hfault, htree⟩ := parse_append_sigil ht hparse hu
    refine ⟨fun e he => render_of_parse_error (hfault e he), ?_⟩
    intro m hm
    obtain ⟨l, r, hwhole, hsegments⟩ := htree m hm
    refine ⟨⟨_, hwhole, hsegments⟩, ?_⟩
    rw [render_of_parse hwhole, renderNode, evaluate_of_segments_append hsegments]
    cases evaluate w n with
    | error e => rfl
    | ok value =>
      cases value with
      | text before =>
        cases evaluate w m with
        | error e => rfl
        | ok value' => cases value' <;> rfl
      | _ => rfl
  · intro t ht
    rw [render_of_parse (parse_of_not_mem ht), renderNode]
    by_cases hempty : t = ""
    · rw [if_pos hempty, hempty]
      rfl
    · rw [if_neg hempty]
      rfl

/-- An entity is no text, which is reported before the undefined name behind it, but after a fault
behind it. -/
theorem render_append_sigil_door :
    render Example.world ("#rusty.metal.door" ++ "#nobody") =
        .error (.unevaluable .notConcatenable) ∧
      render Example.world ("#rusty.metal.door" ++ "#(") =
        .error (.unreadable ⟨.endOfText .identifier, 19⟩) ∧
      render Example.world "Tür" = .ok "Tür" := by
  obtain ⟨hjoin, hplain, -⟩ := render_append_sigil Example.world
  have hdoor : parse "#rusty.metal.door" = .ok (.name "rusty.metal.door") := by cbv
  have hnobody : parse "#nobody" = .ok (.name "nobody") := by cbv
  have hfault : parse "#(" = .error ⟨.endOfText .identifier, 2⟩ := by cbv
  have hvalue : evaluate Example.world (.name "rusty.metal.door") =
      .ok (.entity Example.doorId) := rfl
  refine ⟨?_, ?_, hplain "Tür" (by decide)⟩
  · have h := ((hjoin _ "#nobody" _ (by decide) hdoor (by decide)).2 _ hnobody).2
    rw [hvalue] at h
    exact h
  · exact (hjoin _ "#(" _ (by decide) hdoor (by decide)).1 _ hfault

end TextAdventure.Template
