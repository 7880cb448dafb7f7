import TextAdventure.Proofs.Template.Concatenation
import TextAdventure.Proofs.Template.Limit

/-!
# What evaluation does not reach

Some parts of a tree are never evaluated: the branch that `if` does not choose, both
branches if its condition is no truth value, the arguments of a call that is refused
at its head, and what comes behind a part of a sequence that is no text.
`SameReached w n n'` says that `n'` is `n` with any such parts replaced by any trees.
Which parts these are is decided by what the parts before them evaluate to in `w`,
with no limit on calls inside calls.

Replacing them changes nothing (`evaluate_of_sameReached`), with a limit or without.
The induction is on the replaced parts and is for all limits at once: each level of a
call evaluates the trees below it with a smaller limit.  At a limit that cuts off what
decides, both trees are cut off there (`Approximates`).
-/

namespace TextAdventure.Template

variable {w : World}

mutual

/-- The second tree is the first with parts replaced that evaluation does not reach. -/
inductive SameReached (w : World) : Node → Node → Prop where
  | refl (n : Node) : SameReached w n n
  | sequence {l l' r r' : Node} (left : SameReached w l l') (right : SameReached w r r') :
      SameReached w (.sequence l r) (.sequence l' r')
  | call {f f' : Node} {as as' : List Node} (callee : SameReached w f f')
      (arguments : SameReachedAll w as as') : SameReached w (.call f as) (.call f' as')
  /-- Behind a part that fails or is no text. -/
  | behind {l l' : Node} (r r' : Node) (left : SameReached w l l')
      (noText : ∀ text, evaluateFully w l ≠ .ok (.text text)) :
      SameReached w (.sequence l r) (.sequence l' r')
  /-- The arguments of a head that fails, is no function or does not take so many. -/
  | refused {f f' : Node} {as as' : List Node} (callee : SameReached w f f')
      (count : as'.length = as.length) (refuses : ¬ Takes as.length (evaluateFully w f)) :
      SameReached w (.call f as) (.call f' as')
  /-- The branch that `if` does not choose. -/
  | unchosen {f f' c c' a a' b b' : Node} {holds : Bool} (callee : SameReached w f f')
      (conditional : evaluateFully w f = .ok (.function Builtin.conditional.value))
      (condition : SameReached w c c') (decides : evaluateFully w c = .ok (.flag holds))
      (chosen : SameReached w (if holds then a else b) (if holds then a' else b')) :
      SameReached w (.call f [c, a, b]) (.call f' [c', a', b'])
  /-- Both branches of an `if` whose condition fails or is no truth value. -/
  | undecided {f f' c c' : Node} (a a' b b' : Node) (callee : SameReached w f f')
      (conditional : evaluateFully w f = .ok (.function Builtin.conditional.value))
      (condition : SameReached w c c') (noFlag : ∀ holds, evaluateFully w c ≠ .ok (.flag holds)) :
      SameReached w (.call f [c, a, b]) (.call f' [c', a', b'])

/-- So it is with each two trees of two lists. -/
inductive SameReachedAll (w : World) : List Node → List Node → Prop where
  | nil : SameReachedAll w [] []
  | cons {a a' : Node} {as as' : List Node} (first : SameReached w a a')
      (rest : SameReachedAll w as as') : SameReachedAll w (a :: as) (a' :: as')

end

/-! ## One replacement -/

theorem evaluateWithin_behind {depth : Nat} {l l' : Node}
    (hl : evaluateWithin w depth l' = evaluateWithin w depth l)
    (hnoText : ∀ text, evaluateFully w l ≠ .ok (.text text)) (r r' : Node) :
    evaluateWithin w depth (.sequence l' r') = evaluateWithin w depth (.sequence l r) := by
  rw [evaluateWithin_sequence, evaluateWithin_sequence, hl]
  cases hleft : evaluateWithin w depth l with
  | error e => rfl
  | ok v =>
    cases v with
    | text content => exact absurd (evaluateFully_of_within w hleft) (hnoText content)
    | _ => rfl

/-- Two calls have the same outcome with every limit if they do at each level. -/
theorem evaluateWithin_call {f f' : Node} {as as' : List Node}
    (h : ∀ depth, evaluateCall w (evaluateWithin w depth) f' as' =
      evaluateCall w (evaluateWithin w depth) f as) (depth : Nat) :
    evaluateWithin w depth (.call f' as') = evaluateWithin w depth (.call f as) := by
  cases depth with
  | zero => rfl
  | succ depth => exact h depth

theorem evaluateWithin_refused {f f' : Node} {as as' : List Node}
    (hf : ∀ depth, evaluateWithin w depth f' = evaluateWithin w depth f)
    (hcount : as'.length = as.length) (hrefuses : ¬ Takes as.length (evaluateFully w f))
    (depth : Nat) :
    evaluateWithin w depth (.call f' as') = evaluateWithin w depth (.call f as) := by
  refine evaluateWithin_call (fun below => ?_) depth
  refine evaluateCall_congr_of_not_takes (hf below) hcount ?_
  rintro ⟨g, hg, hbounds⟩
  exact hrefuses ⟨g, evaluateFully_of_within w hg, hbounds⟩

/-- Of the branches of `if` only the one that the condition chooses matters. -/
theorem evaluateWithin_conditional {f f' c c' a a' b b' : Node}
    (hf : ∀ depth, evaluateWithin w depth f' = evaluateWithin w depth f)
    (hconditional : evaluateFully w f = .ok (.function Builtin.conditional.value))
    (hc : ∀ depth, evaluateWithin w depth c' = evaluateWithin w depth c)
    (hchosen : ∀ holds, evaluateFully w c = .ok (.flag holds) → ∀ depth,
      evaluateWithin w depth (if holds then a' else b') =
        evaluateWithin w depth (if holds then a else b)) (depth : Nat) :
    evaluateWithin w depth (.call f' [c', a', b']) =
      evaluateWithin w depth (.call f [c, a, b]) := by
  refine evaluateWithin_call (fun below => ?_) depth
  -- Where the limit cuts the head off, it does so in both calls.
  rcases approximates_fully w below f with hcut | hfull
  · rw [evaluateCall_of_error hcut, evaluateCall_of_error ((hf below).trans hcut)]
  · have hhead := hfull.trans hconditional
    rw [evaluateCall_conditional hhead, evaluateCall_conditional ((hf below).trans hhead), hc]
    cases hcondition : evaluateWithin w below c with
    | error e => rfl
    | ok v =>
      cases v with
      | flag holds => exact hchosen holds (evaluateFully_of_within w hcondition) below
      | _ => rfl

/-! ## All replacements -/

mutual

theorem SameReached.evaluateWithin_eq {n n' : Node} :
    SameReached w n n' → ∀ depth, evaluateWithin w depth n' = evaluateWithin w depth n
  | .refl _, _ => rfl
  | .sequence hl hr, depth => by
    rw [evaluateWithin_sequence, evaluateWithin_sequence, hl.evaluateWithin_eq,
      hr.evaluateWithin_eq]
  | .call hf has, depth =>
    evaluateWithin_call (fun below =>
      evaluateCall_congr (hf.evaluateWithin_eq below) (has.map_evaluateWithin_eq below)) depth
  | .behind r r' hl hnoText, depth =>
    evaluateWithin_behind (hl.evaluateWithin_eq depth) hnoText r r'
  | .refused hf hcount hrefuses, depth =>
    evaluateWithin_refused hf.evaluateWithin_eq hcount hrefuses depth
  | .unchosen hf hconditional hc hdecides hchosen, depth => by
    refine evaluateWithin_conditional hf.evaluateWithin_eq hconditional hc.evaluateWithin_eq
      (fun holds' hdecides' => ?_) depth
    cases hdecides.symm.trans hdecides'
    exact hchosen.evaluateWithin_eq
  | .undecided a a' b b' hf hconditional hc hnoFlag, depth =>
    evaluateWithin_conditional hf.evaluateWithin_eq hconditional hc.evaluateWithin_eq
      (fun holds hdecides => absurd hdecides (hnoFlag holds)) depth

theorem SameReachedAll.map_evaluateWithin_eq {as as' : List Node} :
    SameReachedAll w as as' → ∀ depth,
      as'.map (evaluateWithin w depth) = as.map (evaluateWithin w depth)
  | .nil, _ => rfl
  | .cons ha has, depth => by
    rw [List.map_cons, List.map_cons, ha.evaluateWithin_eq, has.map_evaluateWithin_eq]

end

/-- Trees that differ only where evaluation does not reach have the same outcome, with the limit on
calls inside calls and without. -/
theorem evaluate_of_sameReached {n n' : Node} (h : SameReached w n n') :
    evaluate w n' = evaluate w n ∧ evaluateFully w n' = evaluateFully w n := by
  refine ⟨h.evaluateWithin_eq maxCallDepth, ?_⟩
  have hle := Nat.le_max_left n.callDepth n'.callDepth
  have hle' := Nat.le_max_right n.callDepth n'.callDepth
  calc evaluateFully w n'
      = evaluateWithin w (max n.callDepth n'.callDepth) n' := (evaluateWithin_eq_fully w hle').symm
    _ = evaluateWithin w (max n.callDepth n'.callDepth) n := h.evaluateWithin_eq _
    _ = evaluateFully w n := evaluateWithin_eq_fully w hle

/-- The door is closed, so the second branch may be a node of no form.  An entity is no text, so
what stands behind it may be too. -/
theorem evaluate_of_sameReached_door :
    let head := Node.name "if"
    let condition := Node.call (.name "closed") [.name "rusty.metal.door"]
    let n := Node.sequence
      (.sequence (.call head [condition, .quoted "zu", .quoted "auf"]) (.name "rusty.metal.door"))
      (.call (.name "closed") [])
    let n' := Node.sequence
      (.sequence (.call head [condition, .quoted "zu", .unknown]) (.name "rusty.metal.door"))
      (.call .unknown [.name "nobody"])
    SameReached Example.world n n' ∧ evaluate Example.world n' = evaluate Example.world n := by
  intro head condition n n'
  have hopen : SameReached Example.world (.call head [condition, .quoted "zu", .quoted "auf"])
      (.call head [condition, .quoted "zu", .unknown]) := by
    have hconditional : evaluateFully Example.world head =
        .ok (.function Builtin.conditional.value) := rfl
    have hclosed : evaluateFully Example.world condition = .ok (.flag true) := rfl
    exact .unchosen (.refl head) hconditional (.refl condition) hclosed (.refl (.quoted "zu"))
  have hleft := SameReached.sequence hopen (.refl (.name "rusty.metal.door"))
  have hsame : SameReached Example.world n n' := by
    refine .behind _ _ hleft fun text htext => ?_
    rw [evaluateFully, evaluateWithin_sequence] at htext
    have hfails : Except.error EvalError.notConcatenable = Except.ok (Value.text text) := htext
    cases hfails
  exact ⟨hsame, (evaluate_of_sameReached hsame).1⟩

end TextAdventure.Template
