import TextAdventure.Template.Source
import TextAdventure.Proofs.Template.Parts
import Mathlib.Logic.Function.Iterate

/-!
# Flattening with a stack

A template is taken apart by a loop over the nodes still to visit.  A pass takes the
topmost one.  A sequence is replaced by its two parts, the left one on top, an empty
template is dropped, and any other node is the next segment (`Walk.next`).

Two facts are kept for an arbitrary stack.  The segments found and those of the nodes still
to visit do not change together (`Walk.flattened_next`), so the order is that of the source.
The number of passes still to come goes down by one (`Walk.remaining_next`), although a
sequence makes the stack grow.  So the loop makes as many passes as the tree has nodes
outside of expressions, and leaves the segments of the recursive definition
(`segments_flatten`).

The source of a template is that of its segments, each with its mark.
-/

namespace TextAdventure.Template

/-! ## The loop -/

/-- The state of the loop between two passes. -/
structure Walk where
  /-- The nodes still to visit, the next one first. -/
  pending : List Node
  /-- The segments found so far, the first one first. -/
  found : List Node
deriving DecidableEq, Repr

/-- The loop before its first pass. -/
def Walk.start (n : Node) : Walk := ⟨[n], []⟩

/-- One pass, or nothing when there is no node to visit. -/
def Walk.next : Walk → Walk
  | ⟨[], found⟩ => ⟨[], found⟩
  | ⟨.sequence left right :: rest, found⟩ => ⟨left :: right :: rest, found⟩
  | ⟨.empty :: rest, found⟩ => ⟨rest, found⟩
  | ⟨n :: rest, found⟩ => ⟨rest, found ++ [n]⟩

/-- What the loop finds in the end, by recursion on the trees still to visit. -/
def Walk.flattened (s : Walk) : List Node := s.found ++ s.pending.flatMap Node.parts

/-- How many passes are still to come. -/
def Walk.remaining (s : Walk) : Nat := spreadSum s.pending

theorem Walk.remaining_eq_zero_iff {s : Walk} : s.remaining = 0 ↔ s.pending = [] := by
  obtain ⟨pending, found⟩ := s
  cases pending with
  | nil => simp [Walk.remaining, spreadSum]
  | cons n rest =>
    have hpos := n.spread_pos
    simp only [Walk.remaining, spreadSum, List.cons_ne_nil, iff_false]
    omega

/-- A pass keeps what is found in the end. -/
theorem Walk.flattened_next (s : Walk) : s.next.flattened = s.flattened := by
  obtain ⟨pending, found⟩ := s
  cases pending with
  | nil => rfl
  | cons n rest => cases n <;> simp [Walk.next, Walk.flattened, Node.parts]

/-- A pass is one of those still to come. -/
theorem Walk.remaining_next (s : Walk) : s.next.remaining = s.remaining - 1 := by
  obtain ⟨pending, found⟩ := s
  cases pending with
  | nil => rfl
  | cons n rest =>
    cases n with
    | sequence left right =>
      simp only [Walk.next, Walk.remaining, spreadSum, Node.spread]
      omega
    | _ => simp [Walk.next, Walk.remaining, spreadSum, Node.spread]

theorem Walk.flattened_iterate (k : Nat) (s : Walk) :
    (Walk.next^[k] s).flattened = s.flattened := by
  induction k generalizing s with
  | zero => rfl
  | succ k ih => rw [Function.iterate_succ_apply, ih, Walk.flattened_next]

theorem Walk.remaining_iterate (k : Nat) (s : Walk) :
    (Walk.next^[k] s).remaining = s.remaining - k := by
  induction k generalizing s with
  | zero => rfl
  | succ k ih =>
    rw [Function.iterate_succ_apply, ih, Walk.remaining_next, Nat.sub_sub, Nat.add_comm]

/-- A loop that has ended has found all segments. -/
theorem Walk.eq_of_pending_eq_nil {s : Walk} (h : s.pending = []) : s = ⟨[], s.flattened⟩ := by
  obtain ⟨pending, found⟩ := s
  cases h
  simp [Walk.flattened]

/-- The loop over a tree has ended when it has visited all nodes outside of expressions. -/
theorem Walk.pending_iterate_start (n : Node) (k : Nat) :
    (Walk.next^[k] (.start n)).pending = [] ↔ n.spread ≤ k := by
  rw [← Walk.remaining_eq_zero_iff, Walk.remaining_iterate, Nat.sub_eq_zero_iff_le]
  rfl

theorem Walk.iterate_start {n : Node} {k : Nat} (h : n.spread ≤ k) :
    Walk.next^[k] (.start n) = ⟨[], n.parts⟩ := by
  have hflattened : (Walk.start n).flattened = n.parts := by simp [Walk.start, Walk.flattened]
  rw [Walk.eq_of_pending_eq_nil ((Walk.pending_iterate_start n k).mpr h), Walk.flattened_iterate,
    hflattened]

/-! ## Sources of segments -/

/-- The source of a segment: with the sigil, unless it is literal text. -/
def segmentSource : Node → Except SourceError String
  | .literal text => .ok text
  | n => n.source.map (String.singleton sigil ++ ·)

/-- The sources of segments put together, up to the first one that has none. -/
def segmentsSource : List Node → Except SourceError String
  | [] => .ok ""
  | s :: rest => do
      let source ← segmentSource s
      let behind ← segmentsSource rest
      return source ++ behind

/-- One source and another behind it.  The error is that of the first that has none. -/
def joinSources (first second : Except SourceError String) : Except SourceError String :=
  match first with
  | .error e => .error e
  | .ok before =>
      match second with
      | .error e => .error e
      | .ok behind => .ok (before ++ behind)

@[simp] theorem joinSources_empty_left (second : Except SourceError String) :
    joinSources (.ok "") second = second := by
  cases second <;> simp [joinSources]

@[simp] theorem joinSources_empty_right (first : Except SourceError String) :
    joinSources first (.ok "") = first := by
  cases first <;> simp [joinSources]

theorem joinSources_assoc (a b c : Except SourceError String) :
    joinSources (joinSources a b) c = joinSources a (joinSources b c) := by
  cases a <;> cases b <;> cases c <;> simp [joinSources, String.append_assoc]

@[simp] theorem segmentsSource_nil : segmentsSource [] = .ok "" := rfl

@[simp] theorem segmentsSource_cons (s : Node) (rest : List Node) :
    segmentsSource (s :: rest) = joinSources (segmentSource s) (segmentsSource rest) := by
  rw [segmentsSource]
  cases segmentSource s <;> cases segmentsSource rest <;> rfl

theorem segmentsSource_append (segments more : List Node) :
    segmentsSource (segments ++ more) =
      joinSources (segmentsSource segments) (segmentsSource more) := by
  induction segments with
  | nil => simp
  | cons s rest ih =>
    rw [List.cons_append, segmentsSource_cons, ih, segmentsSource_cons, joinSources_assoc]

theorem segmentsSource_singleton (s : Node) : segmentsSource [s] = segmentSource s := by
  rw [segmentsSource_cons, segmentsSource_nil, joinSources_empty_right]

/-! ## Sources of templates -/

theorem Node.templateSource_sequence (l r : Node) :
    (Node.sequence l r).templateSource = joinSources l.templateSource r.templateSource := by
  rw [Node.templateSource, Node.sourceAt, Node.templateSource, Node.templateSource]
  rw [Position.sequenceFrames, Nat.sub_zero]
  cases l.sourceAt freeFrames .template <;> cases r.sourceAt freeFrames .template <;> rfl

/-- The source of a template is that of its segments. -/
theorem Node.templateSource_eq : ∀ n : Node, n.templateSource = segmentsSource n.parts
  | .empty => by simp [Node.templateSource, Node.sourceAt, Node.parts]
  | .sequence l r => by
    rw [Node.templateSource_sequence, l.templateSource_eq, r.templateSource_eq, Node.parts,
      segmentsSource_append]
  | .literal text => by simp [Node.templateSource, Node.sourceAt, Node.parts, segmentSource]
  | .name token => by
    simp [Node.templateSource, Node.source, Node.sourceAt, Node.parts, segmentSource,
      Position.mark, Except.map]
  | .unknown => by
    simp [Node.templateSource, Node.source, Node.sourceAt, Node.parts, segmentSource, Except.map]
  | .quoted text => by
    simp only [Node.templateSource, Node.source, Node.sourceAt, Node.parts, segmentSource,
      segmentsSource_singleton]
    cases quotedSource text <;> rfl
  | .call f as => by
    simp only [Node.templateSource, Node.source, Node.sourceAt, Node.parts, segmentSource,
      segmentsSource_singleton]
    split
    · rfl
    · cases f.sourceAt (freeFrames - 1) .expression <;>
        cases Node.argumentsSource (freeFrames - callFrames) as <;> rfl

/-- The loop over a tree of any shape ends, after one pass for each node outside of expressions,
and leaves the segments of the recursive definition.  None of them is empty or a sequence.  The
source of a template is that of its segments, so that of a sequence is the sources of its parts put
together, and its error that of the first part that has none. -/
theorem segments_flatten :
    (∀ n : Node,
      (∀ k, (Walk.next^[k] (.start n)).pending = [] ↔ n.spread ≤ k) ∧
        (∀ k, n.spread ≤ k → Walk.next^[k] (.start n) = ⟨[], n.segments⟩) ∧
        n.segments = n.parts ∧
        (∀ s ∈ n.segments, s ≠ .empty ∧ ∀ l r, s ≠ .sequence l r) ∧
        n.templateSource = segmentsSource n.segments) ∧
      ∀ a b : Node, (Node.sequence a b).templateSource =
        match a.templateSource with
        | .error e => .error e
        | .ok before =>
            match b.templateSource with
            | .error e => .error e
            | .ok behind => .ok (before ++ behind) := by
  refine ⟨fun n => ?_, Node.templateSource_sequence⟩
  rw [Node.segments_eq_parts]
  refine ⟨Walk.pending_iterate_start n, fun k => Walk.iterate_start, rfl, ?_, n.templateSource_eq⟩
  intro s hs
  exact ⟨Node.ne_empty_of_mem_parts hs, Node.ne_sequence_of_mem_parts hs⟩

/-- A tree that is nested to the right around an empty template, and a sequence of two parts that
both have no source. -/
theorem segments_flatten_nested :
    let tree :=
      Node.sequence (.literal "a") (.sequence .empty (.sequence (.name "x") (.literal "b")))
    tree.spread ≤ 7 ∧ Walk.next^[7] (.start tree) = ⟨[], tree.segments⟩ ∧
      Node.name "x" ∈ tree.segments ∧ Node.name "x" ≠ .empty ∧
      tree.templateSource = .ok "a#xb" ∧
      (Node.sequence (.quoted "'\"") .unknown).templateSource = .error (.unquotable "'\"") := by
  intro tree
  obtain ⟨htrees, hsequence⟩ := segments_flatten
  obtain ⟨-, hloop, hparts, hsegments, hsource⟩ := htrees tree
  have hspread : tree.spread ≤ 7 := by decide
  have hmem : Node.name "x" ∈ tree.segments := by
    rw [hparts]
    decide
  refine ⟨hspread, hloop 7 hspread, hmem, (hsegments _ hmem).1, ?_, ?_⟩
  · rw [hsource, hparts]
    rfl
  · rw [hsequence]
    rfl

end TextAdventure.Template
