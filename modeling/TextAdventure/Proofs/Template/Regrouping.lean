import TextAdventure.Proofs.Template.Contexts

/-!
# Sequences grouped in another way

A sequence is flattened before it is evaluated, so how its segments are grouped into
sequences, and where empty templates stand among them, is not seen
(`evaluateWithin_eq_of_parts_eq`).  What flattening gives is what evaluating the first part
and then the second would give, the error of the first part that fails or is no text
included (`evaluate_sequence_eq`).  Sequences use up nothing of the limit on calls inside
calls, so all this holds with every limit and without one.
-/

namespace TextAdventure.Template

variable {w : World}

/-- The second tree is the first with empty templates put in front of parts of it or behind them,
any number of them and at any depth of its sequences. -/
inductive Padded : Node → Node → Prop where
  | refl (n : Node) : Padded n n
  | before {n n' : Node} (h : Padded n n') : Padded n (.sequence .empty n')
  | behind {n n' : Node} (h : Padded n n') : Padded n (.sequence n' .empty)
  | sequence {l l' r r' : Node} (left : Padded l l') (right : Padded r r') :
      Padded (.sequence l r) (.sequence l' r')

theorem Padded.parts_eq {n n' : Node} (h : Padded n n') : n'.parts = n.parts := by
  induction h with
  | refl n => rfl
  | before _ ih => rw [Node.parts, Node.parts, List.nil_append, ih]
  | behind _ ih => rw [Node.parts, Node.parts, List.append_nil, ih]
  | sequence _ _ ihl ihr => rw [Node.parts, Node.parts, ihl, ihr]

theorem Padded.exists_sequence {l r n : Node} (h : Padded (.sequence l r) n) :
    ∃ l' r', n = .sequence l' r' := by
  cases h <;> exact ⟨_, _, rfl⟩

/-- Sequences with the same segments have the same outcome with every limit. -/
theorem evaluateWithin_eq_of_parts_eq {l r l' r' : Node}
    (h : (Node.sequence l r).parts = (Node.sequence l' r').parts) (depth : Nat) :
    evaluateWithin w depth (.sequence l r) = evaluateWithin w depth (.sequence l' r') := by
  rw [← Node.segments_eq_parts, ← Node.segments_eq_parts] at h
  cases depth <;> simp only [evaluateWithin, evaluateStep, h]

theorem Padded.evaluateWithin_eq {l r n : Node} (h : Padded (.sequence l r) n) (depth : Nat) :
    evaluateWithin w depth n = evaluateWithin w depth (.sequence l r) := by
  obtain ⟨l', r', rfl⟩ := h.exists_sequence
  exact evaluateWithin_eq_of_parts_eq h.parts_eq depth

/-- A sequence evaluates its first part, which has to be a text, and then its second, with every
limit. -/
theorem evaluateWithin_sequence_eq (depth : Nat) (l r : Node) :
    evaluateWithin w depth (.sequence l r) =
      match evaluateWithin w depth l with
      | .error e => .error e
      | .ok (.text before) =>
          match evaluateWithin w depth r with
          | .error e => .error e
          | .ok (.text behind) => .ok (.text (before ++ behind))
          | .ok _ => .error .notConcatenable
      | .ok _ => .error .notConcatenable := by
  rw [evaluateWithin_sequence]
  show (operand (evaluateWithin w depth l) >>= _) = _
  cases evaluateWithin w depth l with
  | error e => rfl
  | ok value =>
    cases value with
    | text before =>
      show (operand (evaluateWithin w depth r) >>= _) = _
      cases evaluateWithin w depth r with
      | error e => rfl
      | ok value' => cases value' <;> rfl
    | _ => rfl

theorem evaluateWithin_regroup (depth : Nat) (a b c : Node) :
    evaluateWithin w depth (.sequence (.sequence a b) c) =
      evaluateWithin w depth (.sequence a (.sequence b c)) := by
  refine evaluateWithin_eq_of_parts_eq ?_ depth
  simp only [Node.parts, List.append_assoc]

theorem Padded.evaluateWithin_fill {l r n : Node} (h : Padded (.sequence l r) n) (c : Context)
    (depth : Nat) :
    evaluateWithin w depth (c.fill n) = evaluateWithin w depth (c.fill (.sequence l r)) := by
  have halways : ∀ depth, 0 ≤ depth →
      evaluateWithin w depth n = evaluateWithin w depth (.sequence l r) :=
    fun depth _ => h.evaluateWithin_eq depth
  exact c.evaluateWithin_fill halways (Nat.lt_or_ge _ _)

/-- With the limit that is in force, and without one, some trees are evaluated as with one limit for
all of them. -/
theorem exists_depth {eval : Node → Result} (h : eval ∈ [evaluate w, evaluateFully w])
    (ns : List Node) : ∃ depth, ∀ n ∈ ns, eval n = evaluateWithin w depth n := by
  simp only [List.mem_cons, List.not_mem_nil, or_false] at h
  rcases h with rfl | rfl
  · exact ⟨maxCallDepth, fun n _ => rfl⟩
  · obtain ⟨depth, hdepth⟩ : ∃ depth, ∀ n ∈ ns, n.callDepth ≤ depth := by
      induction ns with
      | nil => exact ⟨0, List.forall_mem_nil _⟩
      | cons n ns ih =>
        obtain ⟨depth, hdepth⟩ := ih
        exact ⟨max n.callDepth depth, List.forall_mem_cons.mpr ⟨Nat.le_max_left .., fun m hm =>
          Nat.le_trans (hdepth m hm) (Nat.le_max_right ..)⟩⟩
    exact ⟨depth, fun n hn => (evaluateWithin_eq_fully w (hdepth n hn)).symm⟩

/-- A sequence evaluates its first part, which has to be a text, and then its second, and puts the
texts together.  So it does not matter how three parts are grouped, and empty templates may be put
anywhere into a sequence that stands anywhere in a tree.  That holds with the limit on calls inside
calls and without it. -/
theorem evaluate_sequence_eq (w : World) :
    (∀ eval ∈ [evaluate w, evaluateFully w],
      (∀ l r, eval (.sequence l r) =
        match eval l with
        | .error e => .error e
        | .ok (.text before) =>
            match eval r with
            | .error e => .error e
            | .ok (.text behind) => .ok (.text (before ++ behind))
            | .ok _ => .error .notConcatenable
        | .ok _ => .error .notConcatenable) ∧
      (∀ a b c, eval (.sequence (.sequence a b) c) = eval (.sequence a (.sequence b c))) ∧
      (∀ (c : Context) (l r n : Node), Padded (.sequence l r) n →
        eval (c.fill n) = eval (c.fill (.sequence l r)))) ∧
      EvalError.notConcatenable.message = "invalid operand for concatenation" := by
  refine ⟨fun eval heval => ⟨fun l r => ?_, fun a b c => ?_, fun c l r n hpadded => ?_⟩, rfl⟩
  · obtain ⟨depth, hdepth⟩ := exists_depth heval [l, r, .sequence l r]
    rw [hdepth l (by simp), hdepth r (by simp), hdepth (.sequence l r) (by simp)]
    exact evaluateWithin_sequence_eq depth l r
  · obtain ⟨depth, hdepth⟩ := exists_depth heval
      [.sequence (.sequence a b) c, .sequence a (.sequence b c)]
    rw [hdepth _ List.mem_cons_self, hdepth (.sequence a (.sequence b c)) (by simp)]
    exact evaluateWithin_regroup depth a b c
  · obtain ⟨depth, hdepth⟩ := exists_depth heval [c.fill n, c.fill (.sequence l r)]
    rw [hdepth _ List.mem_cons_self, hdepth (c.fill (.sequence l r)) (by simp)]
    exact hpadded.evaluateWithin_fill c depth

/-- The door is no text, whatever empty templates stand around it, so an argument made of it fails
before the text behind it is looked at. -/
theorem evaluate_sequence_eq_door :
    let n := Node.sequence (.name "rusty.metal.door") (.quoted "zu")
    let n' := Node.sequence (.sequence .empty (.name "rusty.metal.door"))
      (.sequence .empty (.sequence (.quoted "zu") .empty))
    let c := Context.argument (.name "locked") [] .hole []
    Padded n n' ∧ (∀ eval ∈ [evaluate Example.world, evaluateFully Example.world],
      eval (c.fill n') = eval (c.fill n)) ∧
      evaluate Example.world n = .error .notConcatenable := by
  intro n n' c
  obtain ⟨hlaws, -⟩ := evaluate_sequence_eq Example.world
  have hpadded : Padded n n' :=
    .sequence (.before (.refl _)) (.before (.behind (.refl _)))
  refine ⟨hpadded, fun eval heval => ?_, ?_⟩
  · obtain ⟨-, -, hpad⟩ := hlaws eval heval
    exact hpad c _ _ n' hpadded
  · obtain ⟨hrule, -, -⟩ := hlaws (evaluate Example.world) List.mem_cons_self
    exact hrule _ _

end TextAdventure.Template
