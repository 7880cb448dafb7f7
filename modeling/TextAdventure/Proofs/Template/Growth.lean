import TextAdventure.Proofs.Template.Rendering
import TextAdventure.Proofs.Template.TwoRuns
import TextAdventure.Proofs.World.Entities
import TextAdventure.Proofs.World.Names
import TextAdventure.World.Example

/-!
# Worlds that grow

Entities that are added behind all others take no name away from an entity and change
no fact about one.  All they can do is give a meaning to a name that had none.  So every
outcome of a tree stays what it was, except the error that a name has no meaning
(`evaluate_of_build_append`).

All entities that a tree meets are of the smaller world, and about those both worlds
agree.  A name in a branch that is not chosen may get a meaning without anybody asking
for it.
-/

namespace TextAdventure

/-! ## Names and facts -/

section
variable {w w' : World} {more : List Entity} (h : w'.entities = w.entities ++ more)

include h

theorem World.lookup_of_append {name : NamePath} {id : EntityId} (hid : w.lookup name = some id) :
    w'.lookup name = some id := by
  obtain ⟨hid, e, hfirst, rfl⟩ := World.lookup_eq_some_iff.mp hid
  exact World.lookup_eq_some_iff.mpr ⟨hid, e, h ▸ firstNamed_append hfirst more, rfl⟩

theorem World.mem_of_append {e : Entity} (he : e ∈ w.entities) : e ∈ w'.entities := by
  rw [h]
  exact List.mem_append_left more he

end

namespace Template

/-! ## Outcomes -/

/-- The error that a name has no meaning. -/
def EvalError.IsUndefinedName (e : EvalError) : Prop := ∃ token, e = .undefinedName token

theorem mirrors_of_append {w w' : World} {more : List Entity}
    (h : w'.entities = w.entities ++ more) (n : Node) :
    Mirrors (Value.IsWithin fun id => ∃ e ∈ w.entities, e.id = id) (fun _ => True)
      EvalError.IsUndefinedName (evaluate w n) (evaluate w' n) := by
  refine mirrors_evaluate ⟨?_, ?_⟩ fun token _ => ?_
  · rintro id ⟨e, he, rfl⟩
    rw [World.isClosed_of_mem he, World.isClosed_of_mem (World.mem_of_append h he)]
  · rintro id ⟨e, he, rfl⟩
    rw [World.isLocked_of_mem he, World.isLocked_of_mem (World.mem_of_append h he)]
  · refine mirrors_evaluateName (fun _ _ => trivial) (fun _ id hid => ?_)
      fun _ => .inr ⟨token, rfl⟩
    exact ⟨World.mem_of_lookup hid, World.lookup_of_append h hid⟩

/-- Adding entities behind all others keeps every value and every text, and every error but the one
that a name has no meaning. -/
theorem evaluate_of_build_append {name name' : String} {entities more : List Entity}
    {start start' : EntityId} {w w' : World} (hw : World.build name entities start = .ok w)
    (hw' : World.build name' (entities ++ more) start' = .ok w') :
    (∀ n v, evaluate w n = .ok v → evaluate w' n = .ok v) ∧
      (∀ n e, evaluate w n = .error e → ¬ e.IsUndefinedName → evaluate w' n = .error e) ∧
      (∀ text rendered, render w text = .ok rendered → render w' text = .ok rendered) ∧
      ∀ text e, render w text = .error e → (∀ f, e = .unevaluable f → ¬ f.IsUndefinedName) →
        render w' text = .error e := by
  have hgrown : w'.entities = w.entities ++ more := by
    rw [World.entities_of_build hw, World.entities_of_build hw']
  have hmirrors := mirrors_of_append hgrown
  refine ⟨fun n v => (hmirrors n).eq_of_ok, fun n e => (hmirrors n).eq_of_error, ?_, ?_⟩
  · intro text rendered hrendered
    obtain ⟨n, hparse, hnode⟩ := render_eq_ok_iff.mp hrendered
    exact render_eq_ok_iff.mpr ⟨n, hparse, (mirrors_renderNode (hmirrors n)).eq_of_ok hnode⟩
  · intro text e hfails hdefined
    rcases render_eq_error_iff.mp hfails with hunreadable | ⟨n, f, hparse, hnode, rfl⟩
    · exact render_eq_error_iff.mpr (.inl hunreadable)
    · have hnode' := (mirrors_renderNode (hmirrors n)).eq_of_error hnode (hdefined f rfl)
      exact render_eq_error_iff.mpr (.inr ⟨n, f, hparse, hnode', rfl⟩)

/-- A world of nothing but the metal door. -/
def doorOnly : World where
  name := "Door"
  entities := [Example.door]
  start := Example.doorId
  ids_nodup := by decide
  start_mem := by decide

/-- The name of the room has no meaning in the smaller world, but nobody asks for it while the door
is closed.  A call without argument is refused in both worlds. -/
theorem evaluate_of_build_append_door :
    let chosen := Node.call (.name "if")
      [.call (.name "closed") [.name "rusty.metal.door"], .quoted "zu", .name "small.rock.room"]
    let refused := Node.call (.name "locked") []
    World.build "Door" [Example.door] Example.doorId = .ok doorOnly ∧
      World.build "Example World" ([Example.door] ++ [Example.room, Example.tunnel])
        Example.roomId = .ok Example.world ∧
      evaluate Example.world chosen = .ok (.text "zu") ∧
      evaluate Example.world refused = .error (.arity "locked" .atLeast 1 0) := by
  intro chosen refused
  have hsmall : World.build "Door" [Example.door] Example.doorId = .ok doorOnly := rfl
  have hlarge : World.build "Example World" ([Example.door] ++ [Example.room, Example.tunnel])
      Example.roomId = .ok Example.world := rfl
  obtain ⟨hvalue, herror, -, -⟩ := evaluate_of_build_append hsmall hlarge
  refine ⟨hsmall, hlarge, hvalue chosen _ rfl, herror refused _ rfl ?_⟩
  rintro ⟨token, htoken⟩
  cases htoken

end Template

end TextAdventure
