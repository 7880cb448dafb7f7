import TextAdventure.Proofs.Template.Calls
import TextAdventure.Proofs.Template.Parts
import TextAdventure.Template.Rendering

/-!
# Two runs of one evaluation

What the proofs about safety, about the limit on calls and about other worlds share: a
tree is evaluated twice, perhaps in two worlds or with two limits, and the outcomes are
compared.

`Mirrors` relates them.  The second outcome is equal to the first, a good value or a
shared error, unless the first is an error that is excused, such as the one that the
limit was met.  A value is good if it is no deferred tree, a function only if it is one
of the table, and an entity only if it is known (`Value.IsWithin`).  Entities come from
names alone, and the worlds are asked about those that functions are applied to.

`Mirrors.bind` carries the relation through a step of evaluation.  From it follow one
lemma for each construct, the one for a level (`mirrors_evaluateStep`) and the one for all
levels (`mirrors_evaluateWithin`), for every choice of the good entities, the shared and
the excused errors, as long as errors that are the fault of a template are shared.
-/

namespace TextAdventure.Template

variable {α β : Type}

/-! ## Outcomes -/

/-- The second outcome is the first one, and that is a good value or a shared error, unless the
first is an excused error. -/
inductive Mirrors (good : α → Prop) (shared excused : EvalError → Prop) :
    Except EvalError α → Except EvalError α → Prop where
  | value {a : α} (h : good a) : Mirrors good shared excused (.ok a) (.ok a)
  | error {e : EvalError} (h : shared e) : Mirrors good shared excused (.error e) (.error e)
  | excused {e : EvalError} (h : excused e) (y : Except EvalError α) :
      Mirrors good shared excused (.error e) y

section
variable {good : α → Prop} {good' : β → Prop} {shared excused : EvalError → Prop}
  {x y : Except EvalError α}

theorem Mirrors.bind {f g : α → Except EvalError β} (hxy : Mirrors good shared excused x y)
    (hfg : ∀ a, good a → Mirrors good' shared excused (f a) (g a)) :
    Mirrors good' shared excused (x >>= f) (y >>= g) := by
  cases hxy with
  | value ha => exact hfg _ ha
  | error he => exact .error he
  | excused he y => exact .excused he _

theorem Mirrors.good_of_ok {a : α} (h : Mirrors good shared excused x y) (hx : x = .ok a) :
    good a := by
  cases h with
  | value ha => cases hx; exact ha
  | error _ => cases hx
  | excused _ y => cases hx

theorem Mirrors.eq_of_ok {a : α} (h : Mirrors good shared excused x y) (hx : x = .ok a) :
    y = .ok a := by
  cases h with
  | value _ => exact hx
  | error _ => cases hx
  | excused _ y => cases hx

theorem Mirrors.eq_of_error {e : EvalError} (h : Mirrors good shared excused x y)
    (hx : x = .error e) (he : ¬ excused e) : y = .error e := by
  cases h with
  | value _ => cases hx
  | error _ => exact hx
  | excused hexcused y => cases hx; exact absurd hexcused he

theorem Mirrors.eq (h : Mirrors good shared (fun _ => False) x y) : y = x := by
  cases hx : x with
  | ok a => exact h.eq_of_ok hx
  | error e => exact h.eq_of_error hx id

end

/-! ## Errors, values and worlds -/

/-- Decide whether an error is the fault of a template. -/
def EvalError.isOrdinary : EvalError → Bool
  | .notConcatenable | .undefinedName _ | .notFunction | .arity .. | .conditionNotFlag
  | .notEntity _ => true
  | _ => false

/-- A value that has been evaluated, a function only if it is one of the table, and an entity only
if it is known. -/
inductive Value.IsWithin (known : EntityId → Prop) : Value → Prop where
  | text (content : String) : IsWithin known (.text content)
  | flag (holds : Bool) : IsWithin known (.flag holds)
  | entity {id : EntityId} (h : known id) : IsWithin known (.entity id)
  | function (b : Builtin) : IsWithin known (.function b.value)

theorem Value.IsWithin.not_deferred {known : EntityId → Prop} {v : Value} (h : v.IsWithin known) :
    v.isDeferred = false := by
  cases h <;> rfl

/-- Two worlds say the same of the known entities. -/
structure AgreeOn (known : EntityId → Prop) (w w' : World) : Prop where
  /-- Which of them are closed. -/
  closed : ∀ id, known id → w'.isClosed id = w.isClosed id
  /-- Which of them are locked. -/
  locked : ∀ id, known id → w'.isLocked id = w.isLocked id

theorem AgreeOn.refl (known : EntityId → Prop) (w : World) : AgreeOn known w w :=
  ⟨fun _ _ => rfl, fun _ _ => rfl⟩

theorem AgreeOn.mono {known known' : EntityId → Prop} {w w' : World} (h : AgreeOn known w w')
    (hmono : ∀ id, known' id → known id) : AgreeOn known' w w' :=
  ⟨fun id hid => h.closed id (hmono id hid), fun id hid => h.locked id (hmono id hid)⟩

/-! ## Numbers of arguments -/

/-- How many arguments a builtin function takes. -/
def Builtin.arity : Builtin → Nat
  | .conditional => 3
  | .closed => 1
  | .locked => 1

theorem Builtin.arity_iff (b : Builtin) (count : Nat) :
    b.value.minArguments ≤ count ∧ (count : Int) ≤ b.value.maxArguments ↔ count = b.arity := by
  cases b <;> simp only [Builtin.value, Builtin.arity] <;> omega

section
variable {w w' : World} {known : EntityId → Prop} {shared excused : EvalError → Prop}
  {evaluate evaluate' : Node → Result}

/-! ## Arguments -/

theorem mirrors_evaluateAll {ns : List Node}
    (h : ∀ n ∈ ns, Mirrors (Value.IsWithin known) shared excused (evaluate n) (evaluate' n)) :
    Mirrors (fun values => ∀ v ∈ values, v.IsWithin known) shared excused
      (evaluateAll evaluate ns) (evaluateAll evaluate' ns) := by
  induction ns with
  | nil => exact .value fun v hv => by cases hv
  | cons n ns ih =>
    have htail := ih fun m hm => h m (List.mem_cons_of_mem _ hm)
    refine (h n List.mem_cons_self).bind fun v hv => ?_
    refine htail.bind fun vs hvs => ?_
    exact .value (List.forall_mem_cons.mpr ⟨hv, hvs⟩)

variable (hordinary : ∀ e : EvalError, e.isOrdinary = true → shared e)

include hordinary

theorem mirrors_checkArity (b : Builtin) (count : Nat) :
    Mirrors (fun _ => count = b.arity) shared excused (checkArity b.value count)
      (checkArity b.value count) := by
  cases hcheck : checkArity b.value count with
  | ok _ => exact .value ((b.arity_iff count).mp ((checkArity_eq_ok_iff _ _).mp hcheck))
  | error e =>
    refine .error (hordinary e ?_)
    unfold checkArity at hcheck
    split at hcheck
    · cases hcheck; rfl
    · split at hcheck
      · cases hcheck; rfl
      · cases hcheck

/-! ## Application -/

theorem mirrors_applyConditional (condition a b : Value)
    (h : ∀ v ∈ [condition, a, b], ∀ what, Mirrors (Value.IsWithin known) shared excused
      (forceWith evaluate what v) (forceWith evaluate' what v)) :
    Mirrors (Value.IsWithin known) shared excused
      (applyConditional evaluate [condition, a, b])
      (applyConditional evaluate' [condition, a, b]) := by
  rw [applyConditional_eq, applyConditional_eq]
  refine (h condition (by simp) _).bind fun chosen _ => ?_
  cases chosen with
  | flag holds => cases holds <;> exact h _ (by simp) _
  | _ => exact .error (hordinary _ rfl)

theorem mirrors_applyPredicate (function : Builtin) {holds holds' : EntityId → Bool}
    {arguments : List Value} (hone : arguments.length = 1)
    (h : ∀ id, .entity id ∈ arguments → holds' id = holds id) :
    Mirrors (Value.IsWithin known) shared excused (applyPredicate function holds arguments)
      (applyPredicate function holds' arguments) := by
  obtain ⟨v, rfl⟩ := List.length_eq_one_iff.mp hone
  cases v with
  | entity id =>
    show Mirrors _ _ _ (Except.ok (Value.flag (holds id))) (Except.ok (Value.flag (holds' id)))
    rw [h id List.mem_cons_self]
    exact .value (.flag _)
  | _ => exact .error (hordinary _ rfl)

/-- A function of the table that is applied to values reads none beyond them.  It forces values only
if it is special, and asks the worlds only about entities among the values. -/
theorem mirrors_applyWith (b : Builtin) {arguments : List Value}
    (hdeferred : b.value.special = false →
      arguments.any Value.isDeferred = false ∨ ∀ name, shared (.deferredArgument name))
    (hforce : b.value.special = true → ∀ v ∈ arguments, ∀ what,
      Mirrors (Value.IsWithin known) shared excused (forceWith evaluate what v)
        (forceWith evaluate' what v))
    (hagree : AgreeOn (fun id => .entity id ∈ arguments) w w') :
    Mirrors (Value.IsWithin known) shared excused
      (applyWith w evaluate arguments (.function b.value))
      (applyWith w' evaluate' arguments (.function b.value)) := by
  refine (mirrors_checkArity hordinary b arguments.length).bind fun _ hcount => ?_
  split
  · next hmixed =>
    simp only [Bool.and_eq_true, Bool.not_eq_true'] at hmixed
    rcases hdeferred hmixed.1 with hnone | hallowed
    · rw [hmixed.2] at hnone; cases hnone
    · exact .error (hallowed _)
  · cases b with
    | closed => exact mirrors_applyPredicate hordinary .closed hcount hagree.closed
    | locked => exact mirrors_applyPredicate hordinary .locked hcount hagree.locked
    | conditional =>
      match arguments, hcount, hforce rfl with
      | [condition, a, b], _, h => exact mirrors_applyConditional hordinary condition a b h

/-! ## One level of evaluation -/

theorem mirrors_concatenate {ns : List Node}
    (h : ∀ n ∈ ns, Mirrors (Value.IsWithin known) shared excused (evaluate n) (evaluate' n)) :
    Mirrors (fun _ => True) shared excused (concatenate evaluate ns)
      (concatenate evaluate' ns) := by
  induction ns with
  | nil => exact .value trivial
  | cons n ns ih =>
    have htail := ih fun m hm => h m (List.mem_cons_of_mem _ hm)
    refine (h n List.mem_cons_self).bind fun v _ => ?_
    cases v with
    | text content => exact htail.bind fun texts _ => .value trivial
    | _ => exact .error (hordinary _ rfl)

theorem mirrors_evaluateCall (hagree : AgreeOn known w w') {callee : Node} {arguments : List Node}
    (hcallee : Mirrors (Value.IsWithin known) shared excused (evaluate callee) (evaluate' callee))
    (harguments : ∀ a ∈ arguments,
      Mirrors (Value.IsWithin known) shared excused (evaluate a) (evaluate' a)) :
    Mirrors (Value.IsWithin known) shared excused (evaluateCall w evaluate callee arguments)
      (evaluateCall w' evaluate' callee arguments) := by
  refine hcallee.bind fun head hhead => ?_
  cases hhead with
  | function b =>
    refine (mirrors_checkArity hordinary b arguments.length).bind fun _ _ => ?_
    split
    · next hspecial =>
      refine mirrors_applyWith hordinary b (fun hs => ?_) (fun _ v hv what => ?_)
        (hagree.mono fun id hid => ?_)
      · rw [hspecial] at hs; cases hs
      · obtain ⟨a, ha, rfl⟩ := List.mem_map.mp hv
        exact harguments a ha
      · obtain ⟨a, -, hentity⟩ := List.mem_map.mp hid
        cases hentity
    · next hspecial =>
      refine (mirrors_evaluateAll harguments).bind fun values hvalues => ?_
      refine mirrors_applyWith hordinary b (fun _ => .inl ?_) (fun hs => absurd hs hspecial)
        (hagree.mono fun id hid => ?_)
      · exact List.any_eq_false.mpr fun v hv => by simp [(hvalues v hv).not_deferred]
      · cases hvalues _ hid with
        | entity hknown => exact hknown
  | _ => exact .error (hordinary _ rfl)

/-- A name has the same value in both worlds if it leads to a known entity in both or to none in
both.  The error about a name that only the second world knows has to be excused. -/
theorem mirrors_evaluateName {token : String}
    (hfound : builtin? token = none → ∀ id, w.lookupDotted token = some id →
      known id ∧ w'.lookupDotted token = some id)
    (hlost : w.lookupDotted token = none →
      w'.lookupDotted token = none ∨ excused (.undefinedName token)) :
    Mirrors (Value.IsWithin known) shared excused (evaluateName w token)
      (evaluateName w' token) := by
  unfold evaluateName
  cases hbuiltin : builtin? token with
  | some b => exact .value (.function b)
  | none =>
    cases hlookup : w.lookupDotted token with
    | some id =>
      obtain ⟨hknown, hsame⟩ := hfound hbuiltin id hlookup
      simp only [hsame]
      exact .value (.entity hknown)
    | none =>
      rcases hlost hlookup with hnone | hexcused
      · simp only [hnone]
        exact .error (hordinary _ rfl)
      · exact .excused hexcused _

section
variable {n : Node} (hagree : AgreeOn known w w')
  (hnames : ∀ token ∈ n.tokens, Mirrors (Value.IsWithin known) shared excused
    (evaluateName w token) (evaluateName w' token))
  (hknown : n.isKnown = true ∨ shared .unknownNode)

include hagree hnames hknown

theorem mirrors_evaluateSegment {s : Node} (hs : s ∈ n.parts)
    (hbelow : ∀ m : Node, m.IsBelow n →
      Mirrors (Value.IsWithin known) shared excused (evaluate m) (evaluate' m)) :
    Mirrors (Value.IsWithin known) shared excused (evaluateSegment w evaluate s)
      (evaluateSegment w' evaluate' s) := by
  cases s with
  | empty => exact .value (.text "")
  | literal text => exact .value (.text text)
  | quoted text => exact .value (.text text)
  | name token => exact hnames token (Node.tokens_subset_of_mem_parts hs (by simp))
  | call f as =>
    exact mirrors_evaluateCall hordinary hagree (hbelow f (Node.isBelow_head hs)) fun a ha =>
      hbelow a (Node.isBelow_argument hs ha)
  | sequence l r => exact absurd rfl (Node.ne_sequence_of_mem_parts hs l r)
  | unknown =>
    rcases hknown with hk | hshared
    · cases Node.isKnown_of_mem_parts hk hs
    · exact .error hshared

/-- One level of evaluation mirrors if what lies below does. -/
theorem mirrors_evaluateStep
    (hbelow : ∀ m : Node, m.IsBelow n →
      Mirrors (Value.IsWithin known) shared excused (evaluate m) (evaluate' m)) :
    Mirrors (Value.IsWithin known) shared excused (evaluateStep w evaluate n)
      (evaluateStep w' evaluate' n) := by
  have hsegments : ∀ s ∈ n.parts, Mirrors (Value.IsWithin known) shared excused
      (evaluateSegment w evaluate s) (evaluateSegment w' evaluate' s) :=
    fun s hs => mirrors_evaluateSegment hordinary hagree hnames hknown hs hbelow
  cases n with
  | empty => exact .value (.text "")
  | sequence l r =>
    rw [← Node.segments_eq_parts] at hsegments
    exact (mirrors_concatenate hordinary hsegments).bind fun text _ => .value (.text text)
  | _ => exact hsegments _ (List.mem_singleton_self _)

end

end

/-! ## All levels -/

section
variable {w w' : World} {known : EntityId → Prop} {shared excused : EvalError → Prop}

/-- A tree has mirrored outcomes if the names in it have and the worlds agree on what is known.  The
second limit may be larger if the error that the first was met is excused. -/
theorem mirrors_evaluateWithin (hordinary : ∀ e : EvalError, e.isOrdinary = true → shared e)
    (hagree : AgreeOn known w w') {depth depth' : Nat} (hle : depth ≤ depth') {n : Node}
    (hnames : ∀ token ∈ n.tokens, Mirrors (Value.IsWithin known) shared excused
      (evaluateName w token) (evaluateName w' token))
    (hknown : n.isKnown = true ∨ shared .unknownNode)
    (hlimit : excused .tooDeep ∨ depth = depth' ∧ (n.callDepth ≤ depth ∨ shared .tooDeep)) :
    Mirrors (Value.IsWithin known) shared excused (evaluateWithin w depth n)
      (evaluateWithin w' depth' n) := by
  induction depth generalizing depth' n with
  | zero =>
    rcases hlimit with hexcused | ⟨rfl, hdeep⟩
    · cases depth' <;>
        exact mirrors_evaluateStep hordinary hagree hnames hknown fun _ _ => .excused hexcused _
    · refine mirrors_evaluateStep hordinary hagree hnames hknown fun m hm => ?_
      have hlt := hm.callDepth_lt
      exact .error (hdeep.resolve_left (by omega))
  | succ depth ih =>
    obtain ⟨below, rfl⟩ := Nat.exists_eq_add_of_lt hle
    refine mirrors_evaluateStep hordinary hagree hnames hknown fun m hm => ?_
    refine ih (by omega) (fun token htoken => hnames token (hm.tokens_subset htoken))
      (hknown.imp_left hm.isKnown) (hlimit.imp_right fun ⟨hsame, hdeep⟩ => ⟨by omega, ?_⟩)
    have hlt := hm.callDepth_lt
    exact hdeep.imp_left fun hle => by omega

/-- Where all errors are shared, only the names in a tree and the facts about known entities
matter. -/
theorem mirrors_evaluate (hagree : AgreeOn known w w') {n : Node}
    (hnames : ∀ token ∈ n.tokens, Mirrors (Value.IsWithin known) (fun _ => True) excused
      (evaluateName w token) (evaluateName w' token)) :
    Mirrors (Value.IsWithin known) (fun _ => True) excused (evaluate w n) (evaluate w' n) :=
  mirrors_evaluateWithin (fun _ _ => trivial) hagree (Nat.le_refl maxCallDepth) hnames
    (.inr trivial) (.inr ⟨rfl, .inr trivial⟩)

theorem mirrors_renderNode {n : Node}
    (h : Mirrors (Value.IsWithin known) (fun _ => True) excused (evaluate w n) (evaluate w' n)) :
    Mirrors (fun _ => True) (fun _ => True) excused (renderNode w n) (renderNode w' n) := by
  refine h.bind fun v _ => ?_
  cases v with
  | text content => exact .value trivial
  | _ => exact .error trivial

end

end TextAdventure.Template
