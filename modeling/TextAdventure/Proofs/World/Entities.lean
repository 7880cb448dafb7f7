import Mathlib.Data.List.Nodup
import TextAdventure.World.Basic

/-!
# What a world knows of an entity

The entities of a world have different ids, so an id finds the one entity that has it
(`World.entity?_eq_some_iff`), through its position as well as by a search.  What the
world says of an entity, closed or locked, is therefore what the entity itself says
(`World.isClosed_of_mem`, `World.isLocked_of_mem`), wherever it stands and whatever
else is in the world.
-/

namespace TextAdventure

/-- A world that is made of entities has these in their order. -/
theorem World.entities_of_build {name : String} {entities : List Entity} {start : EntityId}
    {w : World} (h : World.build name entities start = .ok w) : w.entities = entities := by
  unfold World.build at h
  split at h
  · cases h
  · split at h
    · cases h
      rfl
    · cases h

/-! ## Ids -/

/-- To look a position up by id and then the entity there is to search for the id.  The induction
is on the entities that are still to come, behind those that the positions have passed. -/
theorem lookup_positions (passed entities : List Entity) (id : EntityId) :
    (((entities.zipIdx passed.length).map fun (e, position) => (e.id, position)).lookup id).bind
        ((passed ++ entities)[·]?) =
      entities.find? fun e => e.id = id := by
  induction entities generalizing passed with
  | nil => rfl
  | cons e entities ih =>
    rw [List.zipIdx_cons, List.map_cons, List.lookup_cons, List.find?_cons]
    by_cases hid : e.id = id
    · simp [hid]
    · have hother : (id == e.id) = false := beq_false_of_ne (Ne.symm hid)
      have hrest := ih (passed ++ [e])
      rw [List.length_append, List.length_singleton, List.append_assoc, List.singleton_append]
        at hrest
      simp only [hother, hid, decide_false]
      exact hrest

theorem World.entity?_eq_find? (w : World) (id : EntityId) :
    w.entity? id = w.entities.find? fun e => e.id = id :=
  lookup_positions [] w.entities id

/-- Entities of a world with the same id are the same. -/
theorem World.eq_of_id_eq {w : World} {e e' : Entity} (he : e ∈ w.entities)
    (he' : e' ∈ w.entities) (h : e.id = e'.id) : e = e' :=
  List.inj_on_of_nodup_map w.ids_nodup he he' h

/-- An id finds the entity that has it. -/
theorem World.entity?_eq_some_iff {w : World} {id : EntityId} {e : Entity} :
    w.entity? id = some e ↔ e ∈ w.entities ∧ e.id = id := by
  rw [World.entity?_eq_find?]
  constructor
  · intro hfound
    exact ⟨List.mem_of_find?_eq_some hfound, by simpa using List.find?_some hfound⟩
  · rintro ⟨he, rfl⟩
    obtain ⟨e', hfound⟩ := Option.isSome_iff_exists.mp
      (List.find?_isSome (p := fun d => decide (d.id = e.id)).mpr ⟨e, he, by simp⟩)
    have hid : e'.id = e.id := by simpa using List.find?_some hfound
    rw [hfound, World.eq_of_id_eq (List.mem_of_find?_eq_some hfound) he hid]

theorem World.entity?_of_mem {w : World} {e : Entity} (h : e ∈ w.entities) :
    w.entity? e.id = some e :=
  World.entity?_eq_some_iff.mpr ⟨h, rfl⟩

/-! ## Closed and locked -/

/-- Whether the first attribute of being closable says closed. -/
def Entity.isClosed (e : Entity) : Bool :=
  match e.attribute? .closable with
  | some (.closable closed) => closed
  | _ => false

/-- Whether the first attribute of being lockable says locked. -/
def Entity.isLocked (e : Entity) : Bool :=
  match e.attribute? .lockable with
  | some (.lockable locked) => locked
  | _ => false

theorem World.isClosed_of_mem {w : World} {e : Entity} (h : e ∈ w.entities) :
    w.isClosed e.id = e.isClosed := by
  rw [World.isClosed, World.attribute?, World.entity?_of_mem h]
  rfl

theorem World.isLocked_of_mem {w : World} {e : Entity} (h : e ∈ w.entities) :
    w.isLocked e.id = e.isLocked := by
  rw [World.isLocked, World.attribute?, World.entity?_of_mem h]
  rfl

end TextAdventure
