import TextAdventure.Proofs.Template.Calls
import TextAdventure.Proofs.Template.Concatenation
import TextAdventure.Proofs.Template.Limit
import TextAdventure.World.Example

/-!
# Trees with a hole

A context is a tree with one hole, which may be a part of a sequence, the head or an
argument of a call, and lie at any depth.  What a tree in the hole contributes to the whole
is its outcome and nothing else: trees with the same outcome may be put in each other's
place (`evaluateFully_fill_congr`), also where one is a sequence whose segments become
segments of the whole and the other is not.

Calls above the hole use up levels of the limit (`Context.levels`).  So two trees that have
the same outcome with every limit from some number on give the same whole with every limit
from the number that is larger by those levels, and also with a limit that ends above the
hole (`Context.evaluateWithin_fill`).
-/

namespace TextAdventure.Template

/-! ## Contexts -/

/-- A tree with one hole. -/
inductive Context where
  | hole
  /-- In the first part of a sequence. -/
  | left (c : Context) (right : Node)
  /-- In the second part of a sequence. -/
  | right (left : Node) (c : Context)
  /-- In the head of a call. -/
  | callee (c : Context) (arguments : List Node)
  /-- In an argument of a call, with other arguments before it and behind it. -/
  | argument (callee : Node) (before : List Node) (c : Context) (behind : List Node)

/-- The tree with another one in its hole. -/
def Context.fill : Context → Node → Node
  | .hole, n => n
  | .left c r, n => .sequence (c.fill n) r
  | .right l c, n => .sequence l (c.fill n)
  | .callee c as, n => .call (c.fill n) as
  | .argument f before c behind, n => .call f (before ++ c.fill n :: behind)

/-- How many calls the hole lies in. -/
def Context.levels : Context → Nat
  | .hole => 0
  | .left c _ => c.levels
  | .right _ c => c.levels
  | .callee c _ => c.levels + 1
  | .argument _ _ c _ => c.levels + 1

/-! ## The same outcome -/

variable {w : World}

/-- Trees with the same outcome with every limit from `least` on make the same whole of a context,
with a limit that is used up above the hole or leaves `least` there. -/
theorem Context.evaluateWithin_fill (c : Context) {a b : Node} {least : Nat}
    (h : ∀ depth, least ≤ depth → evaluateWithin w depth a = evaluateWithin w depth b)
    {depth : Nat} (hdepth : depth < c.levels ∨ c.levels + least ≤ depth) :
    evaluateWithin w depth (c.fill a) = evaluateWithin w depth (c.fill b) := by
  induction c generalizing depth with
  | hole =>
    simp only [Context.levels, Nat.not_lt_zero, false_or, Nat.zero_add] at hdepth
    exact h depth hdepth
  | left c r ih =>
    rw [Context.fill, Context.fill, evaluateWithin_sequence, evaluateWithin_sequence, ih hdepth]
  | right l c ih =>
    rw [Context.fill, Context.fill, evaluateWithin_sequence, evaluateWithin_sequence, ih hdepth]
  | callee c as ih =>
    cases depth with
    | zero => rfl
    | succ depth =>
      -- The call uses up one level of the limit and is one of the levels above the hole.
      simp only [Context.levels] at hdepth
      exact evaluateCall_congr (ih (by omega)) rfl
  | argument f before c behind ih =>
    cases depth with
    | zero => rfl
    | succ depth =>
      simp only [Context.levels] at hdepth
      have hhole : evaluateWithin w depth (c.fill a) = evaluateWithin w depth (c.fill b) :=
        ih (by omega)
      have harguments : (before ++ c.fill a :: behind).map (evaluateWithin w depth) =
          (before ++ c.fill b :: behind).map (evaluateWithin w depth) := by
        rw [List.map_append, List.map_append, List.map_cons, List.map_cons, hhole]
      exact evaluateCall_congr rfl harguments

/-- Trees with the same outcome may be put in each other's place. -/
theorem Context.evaluateFully_fill (c : Context) {a b : Node}
    (h : evaluateFully w a = evaluateFully w b) :
    evaluateFully w (c.fill a) = evaluateFully w (c.fill b) := by
  have hfrom : ∀ depth, max a.callDepth b.callDepth ≤ depth →
      evaluateWithin w depth a = evaluateWithin w depth b := by
    intro depth hdepth
    rw [evaluateWithin_eq_fully w (by omega), evaluateWithin_eq_fully w (by omega), h]
  -- One limit that cuts off none of the four trees.
  obtain ⟨depth, hdepth⟩ : ∃ depth, depth = max (c.levels + max a.callDepth b.callDepth)
    (max (c.fill a).callDepth (c.fill b).callDepth) := ⟨_, rfl⟩
  calc evaluateFully w (c.fill a)
      = evaluateWithin w depth (c.fill a) := (evaluateWithin_eq_fully w (by omega)).symm
    _ = evaluateWithin w depth (c.fill b) := c.evaluateWithin_fill hfrom (.inr (by omega))
    _ = evaluateFully w (c.fill b) := evaluateWithin_eq_fully w (by omega)

/-- With the limit on calls inside calls, an outcome that is not cut off is the one without. -/
theorem evaluateFully_of_ne_tooDeep {n : Node} (h : evaluate w n ≠ .error .tooDeep) :
    evaluateFully w n = evaluate w n :=
  ((approximates_fully w maxCallDepth n).resolve_left h).symm

/-- Evaluation is referentially transparent: a tree may be replaced anywhere by one with the same
outcome, for example by its text if it has one.  With the limit on calls inside calls this holds
of all outcomes that it does not cut off. -/
theorem evaluateFully_fill_congr (w : World) :
    (∀ (c : Context) (a b : Node), evaluateFully w a = evaluateFully w b →
      evaluateFully w (c.fill a) = evaluateFully w (c.fill b)) ∧
    (∀ (c : Context) (a : Node) (text : String), evaluateFully w a = .ok (.text text) →
      evaluateFully w (c.fill a) = evaluateFully w (c.fill (.quoted text))) ∧
    ∀ (c : Context) (a b : Node), evaluate w a = evaluate w b →
      evaluate w a ≠ .error .tooDeep → evaluate w (c.fill a) ≠ .error .tooDeep →
      evaluate w (c.fill b) ≠ .error .tooDeep →
      evaluate w (c.fill a) = evaluate w (c.fill b) := by
  refine ⟨fun c a b h => c.evaluateFully_fill h, fun c a text h => c.evaluateFully_fill h, ?_⟩
  intro c a b h ha hfilla hfillb
  have hb : evaluate w b ≠ .error .tooDeep := h ▸ ha
  have hfully : evaluateFully w a = evaluateFully w b := by
    rw [evaluateFully_of_ne_tooDeep ha, evaluateFully_of_ne_tooDeep hb, h]
  have hfill := c.evaluateFully_fill hfully
  rwa [evaluateFully_of_ne_tooDeep hfilla, evaluateFully_of_ne_tooDeep hfillb] at hfill

/-- A call and a sequence with the same text, in the branch that another call chooses and in a
sequence.  There the one is a single segment and the other is two. -/
theorem evaluateFully_fill_congr_door :
    let condition := Node.call (.name "closed") [.name "rusty.metal.door"]
    let a := Node.call (.name "if") [condition, .quoted "zu", .quoted "auf"]
    let b := Node.sequence (.literal "z") (.sequence .empty (.quoted "u"))
    let branch := Context.argument (.name "if") [condition] .hole [.name "nobody"]
    let part := Context.right (.literal "Die Tür ist ") .hole
    evaluateFully Example.world a = .ok (.text "zu") ∧
      evaluateFully Example.world b = .ok (.text "zu") ∧
      evaluateFully Example.world (branch.fill b) = evaluateFully Example.world (branch.fill a) ∧
      evaluateFully Example.world (part.fill a) =
        evaluateFully Example.world (part.fill (.quoted "zu")) ∧
      evaluate Example.world (part.fill b) = .ok (.text "Die Tür ist zu") := by
  intro condition a b branch part
  obtain ⟨hfill, htext, hlimited⟩ := evaluateFully_fill_congr Example.world
  have hcall : ∀ depth, evaluateWithin Example.world (depth + 2) a = .ok (.text "zu") := by
    intro depth
    cases depth <;> rfl
  have hpair : ∀ depth, evaluateWithin Example.world depth b = .ok (.text "zu") := by
    intro depth
    rw [evaluateWithin_sequence, evaluateWithin_sequence]
    cases depth <;> rfl
  have hone : evaluate Example.world (part.fill a) = .ok (.text "Die Tür ist zu") := by
    show evaluate Example.world (.sequence (.literal "Die Tür ist ") a) = _
    rw [evaluate, evaluateWithin_sequence]
    rfl
  have htwo : evaluate Example.world (part.fill b) ≠ .error .tooDeep := by
    show evaluate Example.world (.sequence (.literal "Die Tür ist ") b) ≠ _
    rw [evaluate, evaluateWithin_sequence, hpair]
    exact nofun
  have ha : evaluateFully Example.world a = .ok (.text "zu") := hcall 0
  have hb : evaluateFully Example.world b = .ok (.text "zu") := hpair _
  refine ⟨ha, hb, hfill branch b a (hb.trans ha.symm), htext part a "zu" ha, ?_⟩
  have hsame : evaluate Example.world a = evaluate Example.world b :=
    (hcall _).trans (hpair _).symm
  have hshort : evaluate Example.world a ≠ .error .tooDeep := by
    rw [hsame, evaluate, hpair]
    exact nofun
  rw [← hlimited part a b hsame hshort (by rw [hone]; exact nofun) htwo]
  exact hone

end TextAdventure.Template
