import TextAdventure.World.Basic

/-!
# Names in a world

A name path stands for the first entity that has it.  The index of names is
built entity by entity: a new name is entered with the id of its entity, and a
name that is there already stays as it is and gives a clash.

An entity without id may be entered, but then its name resolves to nothing.
-/

namespace TextAdventure

/-- An entity whose name was taken before. -/
structure NameClash where
  /-- The name. -/
  name : NamePath
  /-- The id of the entity that comes too late. -/
  id : EntityId
  /-- The id of the entity that has the name. -/
  first : EntityId
deriving DecidableEq, Repr

/-- What is said about an entity whose name was taken before. -/
def NameClash.message (c : NameClash) : String :=
  "Name " ++ c.name.dotted ++ " of entity " ++ c.id.display ++ " is already used by entity " ++
    c.first.display

/-- The names entered so far, and the clashes in the order in which they were met. -/
structure NameIndex where
  /-- Each name with the id of its first entity. -/
  entries : List (NamePath × EntityId)
  /-- The clashes. -/
  clashes : List NameClash
deriving DecidableEq, Repr

/-- Enter the name of an entity. -/
def NameIndex.add (index : NameIndex) (e : Entity) : NameIndex :=
  match index.entries.lookup e.name with
  | none => ⟨index.entries ++ [(e.name, e.id)], index.clashes⟩
  | some first =>
      if first = e.id then index else ⟨index.entries, index.clashes ++ [⟨e.name, e.id, first⟩]⟩

/-- The names of all entities. -/
def World.nameIndex (w : World) : NameIndex := w.entities.foldl NameIndex.add ⟨[], []⟩

/-- The clashes of names, in the order of the entities that come too late. -/
def World.clashes (w : World) : List NameClash := w.nameIndex.clashes

/-- The id that a name path stands for. -/
def World.lookup (w : World) (name : NamePath) : Option EntityId :=
  match w.nameIndex.entries.lookup name with
  | some .anonymous => none
  | found => found

/-- The id that a dotted name stands for. -/
def World.lookupDotted (w : World) (dotted : String) : Option EntityId :=
  w.lookup (NamePath.ofDotted dotted)

end TextAdventure
