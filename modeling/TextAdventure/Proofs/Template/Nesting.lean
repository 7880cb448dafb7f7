import TextAdventure.Proofs.Template.Segments

/-!
# Nesting of calls

The nesting of a tree is the greatest number of its calls that lie inside each
other (`Node.callDepth`).  Reading with a limit never gives a tree that is nested
deeper than the limit (`callDepth_le_of_parseWithin`).

The invariant behind this is `Shallow`: around every argument that the machine
has stored there is one open call for each level outside of it, and the two
numbers together stay within the limit.  Every step keeps it (`Reader.shallow_step`),
so every run does.  Neither the number of segments nor that of arguments plays a
part.
-/

namespace TextAdventure.Template

/-! ## The nesting of a tree -/

mutual

/-- How many calls lie inside each other in a tree. -/
def Node.callDepth : Node → Nat
  | .sequence l r => max l.callDepth r.callDepth
  | .call f as => max f.callDepth (Node.deepest as) + 1
  | _ => 0

/-- How many calls lie inside each other in the deepest tree of a list. -/
def Node.deepest : List Node → Nat
  | [] => 0
  | a :: as => max a.callDepth (Node.deepest as)

end

@[simp] theorem Node.callDepth_name (token : String) : (Node.name token).callDepth = 0 := by
  simp [Node.callDepth]

@[simp] theorem Node.callDepth_quoted (text : String) : (Node.quoted text).callDepth = 0 := by
  simp [Node.callDepth]

@[simp] theorem Node.callDepth_literal (text : String) : (Node.literal text).callDepth = 0 := by
  simp [Node.callDepth]

@[simp] theorem Node.callDepth_sequence (l r : Node) :
    (Node.sequence l r).callDepth = max l.callDepth r.callDepth := by
  simp [Node.callDepth]

/-- A call of a name adds one level to its deepest argument. -/
@[simp] theorem Node.callDepth_call_name (token : String) (as : List Node) :
    (Node.call (.name token) as).callDepth = Node.deepest as + 1 := by
  simp [Node.callDepth]

@[simp] theorem Node.deepest_nil : Node.deepest [] = 0 := by simp [Node.deepest]

@[simp] theorem Node.deepest_cons (a : Node) (as : List Node) :
    Node.deepest (a :: as) = max a.callDepth (Node.deepest as) := by
  simp [Node.deepest]

theorem Node.callDepth_le_deepest {a : Node} {as : List Node} (h : a ∈ as) :
    a.callDepth ≤ Node.deepest as := by
  induction as with
  | nil => cases h
  | cons b as ih =>
    rw [Node.deepest_cons]
    rcases List.mem_cons.mp h with rfl | htail
    · exact Nat.le_max_left _ _
    · exact Nat.le_trans (ih htail) (Nat.le_max_right _ _)

@[simp] theorem Node.deepest_append (as bs : List Node) :
    Node.deepest (as ++ bs) = max (Node.deepest as) (Node.deepest bs) := by
  induction as with
  | nil => simp
  | cons a as ih => simp [ih, Nat.max_assoc]

@[simp] theorem Node.deepest_reverse (as : List Node) :
    Node.deepest as.reverse = Node.deepest as := by
  induction as with
  | nil => rfl
  | cons a as ih => simp [ih, Nat.max_comm]

/-- Nesting segments in sequences adds no level. -/
theorem Node.callDepth_ofSegments (segments : List Node) :
    (Node.ofSegments segments).callDepth = Node.deepest segments := by
  have hfold : ∀ (rest : List Node) (s : Node),
      (rest.foldl Node.sequence s).callDepth = max s.callDepth (Node.deepest rest) := by
    intro rest
    induction rest with
    | nil => intro s; simp
    | cons t rest ih =>
      intro s
      rw [List.foldl_cons, ih, Node.callDepth_sequence, Node.deepest_cons, Nat.max_assoc]
  cases segments with
  | nil => simp [Node.ofSegments, Node.callDepth]
  | cons s rest => rw [Node.ofSegments, hfold, Node.deepest_cons]

/-! ## Open calls -/

/-- All open calls of a state, the innermost one first.  A call whose head has not been read is
open as well. -/
def Reader.calls (r : Reader) : List OpenCall :=
  match r.mode with
  | .head => ⟨"", []⟩ :: r.outer
  | .headName letters => ⟨spell letters, []⟩ :: r.outer
  | .arguments call => call :: r.outer
  | _ => r.outer

/-- Every argument that open calls hold is nested within what the limit leaves at its level. -/
def Shallow (limit : Nat) : List OpenCall → Prop
  | [] => True
  | call :: outer => outer.length + 1 + Node.deepest call.arguments ≤ limit ∧ Shallow limit outer

/-- There are no more open calls than the limit allows. -/
theorem Shallow.length_le {limit : Nat} {calls : List OpenCall} (h : Shallow limit calls) :
    calls.length ≤ limit := by
  cases calls with
  | nil => exact Nat.zero_le _
  | cons call outer =>
    have := h.1
    rw [List.length_cons]
    omega

/-- What a character leads to is within the limit: the open calls, or the tree when the expression
has ended. -/
def Outcome.Shallow (limit : Nat) : Outcome → Prop
  | .more r => Template.Shallow limit r.calls
  | .done n => n.callDepth ≤ limit
  | .doneBefore n => n.callDepth ≤ limit
  | .overflow | .fault _ => True

theorem shallow_complete {limit : Nat} {outer : List OpenCall} {n : Node}
    (h : Shallow limit outer) (hn : outer.length + n.callDepth ≤ limit) :
    (complete outer n).Shallow limit := by
  cases outer with
  | nil => simpa [complete, Outcome.Shallow] using hn
  | cons call outer =>
    obtain ⟨hcall, houter⟩ := h
    rw [List.length_cons] at hn
    refine ⟨?_, houter⟩
    simp only [OpenCall.push, Node.deepest_cons]
    omega

theorem shallow_beginExpression {limit : Nat} {outer : List OpenCall} (h : Shallow limit outer)
    (c : Char) : (beginExpression limit outer c).Shallow limit := by
  unfold beginExpression
  repeat' split
  · next hlt => exact ⟨hlt, h⟩
  · trivial
  · exact h
  · exact h
  · trivial

theorem shallow_stepArguments {limit : Nat} (outer : List OpenCall) (call : OpenCall)
    (h : Shallow limit (call :: outer)) (c : Char) :
    (stepArguments limit outer call c).Shallow limit := by
  unfold stepArguments
  repeat' split
  · exact h
  · refine shallow_complete h.2 ?_
    rw [OpenCall.close, Node.callDepth_call_name, Node.deepest_reverse]
    have := h.1
    omega
  · exact shallow_beginExpression h c

/-- A step keeps the open calls within the limit. -/
theorem Reader.shallow_step {limit : Nat} {r : Reader} (h : Shallow limit r.calls) (c : Char) :
    (r.step limit c).Shallow limit := by
  obtain ⟨outer, mode⟩ := r
  cases mode with
  | due =>
    simp only [Reader.step]
    split
    · exact h
    · exact shallow_beginExpression h c
  | head =>
    simp only [Reader.step]
    repeat' split
    · exact h
    · exact h
    · trivial
  | headName letters =>
    simp only [Reader.step]
    split
    · exact h
    · exact shallow_stepArguments outer ⟨spell letters, []⟩ h c
  | arguments call => exact shallow_stepArguments outer call h c
  | quoted mark letters =>
    simp only [Reader.step]
    split
    · have hlength : outer.length ≤ limit := Shallow.length_le h
      exact shallow_complete h (by simpa using hlength)
    · exact h
  | name letters =>
    simp only [Reader.step]
    split
    · exact h
    · cases outer with
      | nil => simp [Outcome.Shallow]
      | cons call outer =>
        have hcalls : Shallow limit (call :: outer) := h
        refine shallow_stepArguments outer (call.push (.name (spell letters))) ?_ c
        simpa [Shallow, OpenCall.push] using hcalls

/-- So does a run. -/
theorem Reader.shallow_advance {limit : Nat} {r last : Reader} {used : List Char}
    (h : Shallow limit r.calls) (hrun : r.advance limit used = some last) :
    Shallow limit last.calls := by
  induction used generalizing r with
  | nil =>
    cases hrun
    exact h
  | cons c used ih =>
    have hstep := Reader.shallow_step h c
    rw [Reader.advance] at hrun
    split at hrun
    · next r' hs =>
      rw [hs] at hstep
      exact ih hstep hrun
    · cases hrun

/-- An expression that is read is nested within the limit. -/
theorem Reader.callDepth_le_of_read {limit : Nat} {r : Reader} {cs rest : List Char} {n : Node}
    (h : Shallow limit r.calls) (hread : r.read limit cs = .ok (n, rest)) :
    n.callDepth ≤ limit := by
  obtain ⟨used, last, hrun, hend⟩ := Reader.exists_advance_of_read hread
  have hlast := Reader.shallow_advance h hrun
  rcases hend with ⟨c, -, hc⟩ | ⟨c, tail, -, -, hc⟩ | ⟨-, -, hfinish⟩
  · have hstep := Reader.shallow_step hlast c
    rwa [hc] at hstep
  · have hstep := Reader.shallow_step hlast c
    rwa [hc] at hstep
  · obtain ⟨letters, -, rfl⟩ := Reader.finish_eq_ok hfinish
    simp

/-! ## Templates -/

theorem deepest_le_of_readSegments {limit : Nat} {cs : List Char} {segments : List Node}
    (h : readSegments limit cs = .ok segments) : Node.deepest segments ≤ limit := by
  fun_induction readSegments limit cs generalizing segments with
  | case1 =>
    cases h
    simp
  | case2 cs e he => cases h
  | case3 cs n rest hread ih =>
    obtain ⟨tail, htail, rfl⟩ := exceptMap_eq_ok_iff.mp h
    have hn := Reader.callDepth_le_of_read (r := Reader.start) trivial hread
    simp only [Node.deepest_cons]
    exact Nat.max_le.mpr ⟨hn, ih htail⟩
  | case4 c cs hc ih =>
    obtain ⟨tail, htail, rfl⟩ := exceptMap_eq_ok_iff.mp h
    simpa using ih htail

/-- A template that is read is nested within the limit. -/
theorem callDepth_le_of_parseWithin {limit : Nat} {text : String} {n : Node}
    (h : parseWithin limit text = .ok n) : n.callDepth ≤ limit := by
  obtain ⟨segments, hread, rfl⟩ := parseWithin_eq_ok_iff.mp h
  rw [Node.callDepth_ofSegments]
  exact deepest_le_of_readSegments hread

end TextAdventure.Template
