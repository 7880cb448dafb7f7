import TextAdventure.World.Entity

/-!
# Worlds

A world is a list of entities with different ids, one of which is where players
start.  `World.build` makes a world of a list of entities: it reports the first
id that has occurred before, and only then a start location that is no entity.

Entities are found by id through their positions.
-/

namespace TextAdventure

/-- The entities of the game and where it starts. -/
structure World where
  /-- What the world is called. -/
  name : String
  /-- The entities in their order. -/
  entities : List Entity
  /-- The id of the entity where players start. -/
  start : EntityId
  /-- No two entities have the same id. -/
  ids_nodup : (entities.map Entity.id).Nodup
  /-- The start is the id of an entity. -/
  start_mem : start ∈ entities.map Entity.id

/-! ## Building -/

/-- The first id of a list that is in `seen` or occurs earlier in the list. -/
def firstRepeat (seen : List EntityId) : List EntityId → Option EntityId
  | [] => none
  | id :: ids => if id ∈ seen then some id else firstRepeat (id :: seen) ids

theorem nodup_of_firstRepeat {seen ids : List EntityId} (h : firstRepeat seen ids = none) :
    ids.Nodup ∧ ∀ id ∈ ids, id ∉ seen := by
  induction ids generalizing seen with
  | nil => exact ⟨List.nodup_nil, fun _ hm => by cases hm⟩
  | cons id ids ih =>
    by_cases hs : id ∈ seen
    · simp [firstRepeat, hs] at h
    · rw [firstRepeat, if_neg hs] at h
      obtain ⟨hnd, hfresh⟩ := ih h
      refine ⟨List.nodup_cons.mpr ⟨fun hm => hfresh id hm (List.mem_cons_self ..), hnd⟩, ?_⟩
      intro x hx
      cases List.mem_cons.mp hx with
      | inl he => rw [he]; exact hs
      | inr hx' => exact fun hm => hfresh x hx' (List.mem_cons_of_mem _ hm)

/-- Make a world of entities, unless an id occurs twice or no entity is the start. -/
def World.build (name : String) (entities : List Entity) (start : EntityId) :
    Except WorldError World :=
  match h : firstRepeat [] (entities.map Entity.id) with
  | some id => .error (.duplicateId id)
  | none =>
      if hs : start ∈ entities.map Entity.id then
        .ok ⟨name, entities, start, (nodup_of_firstRepeat h).1, hs⟩
      else .error (.unknownStart start)

/-! ## Finding entities -/

/-- The ids of the entities with their positions. -/
def World.positions (w : World) : List (EntityId × Nat) :=
  w.entities.zipIdx.map fun (e, position) => (e.id, position)

/-- The entity with an id. -/
def World.entity? (w : World) (id : EntityId) : Option Entity :=
  (w.positions.lookup id).bind (w.entities[·]?)

/-- The attributes of the entity with an id, none if there is no such entity. -/
def World.attributes (w : World) (id : EntityId) : List Attribute :=
  ((w.entity? id).map Entity.attributes).getD []

/-- The first attribute of a kind of the entity with an id. -/
def World.attribute? (w : World) (id : EntityId) (kind : AttributeKind) : Option Attribute :=
  (w.entity? id).bind (Entity.attribute? · kind)

/-- Whether an entity is closed, which it is not if it cannot be. -/
def World.isClosed (w : World) (id : EntityId) : Bool :=
  match w.attribute? id .closable with
  | some (.closable closed) => closed
  | _ => false

/-- Whether an entity is locked, which it is not if it cannot be. -/
def World.isLocked (w : World) (id : EntityId) : Bool :=
  match w.attribute? id .lockable with
  | some (.lockable locked) => locked
  | _ => false

/-- A short description of a world. -/
def World.describe (w : World) : String :=
  s!"World<{w.name}: {w.entities.length} entities>"

end TextAdventure
