import TextAdventure.World.Names

/-!
# What names stand for

The index of names is built by one pass over the entities.  In it a name is found
with the id of the first entity that is called so (`World.lookup_nameIndex`), which
is what a search through the list of entities finds.  So whatever a name resolves to
is an entity of the world (`World.mem_of_lookup`).
-/

namespace TextAdventure

/-- The first entity of a list that has a name. -/
def firstNamed (entities : List Entity) (name : NamePath) : Option Entity :=
  entities.find? fun e => e.name = name

/-- Entering a name changes nothing about names that are found already. -/
theorem NameIndex.lookup_add (index : NameIndex) (e : Entity) (name : NamePath) :
    (index.add e).entries.lookup name =
      (index.entries.lookup name).or (if e.name = name then some e.id else none) := by
  unfold NameIndex.add
  split
  · next hnew =>
    rw [List.lookup_append, List.lookup_cons, List.lookup_nil]
    by_cases hname : e.name = name
    · simp [hname]
    · have hother : (name == e.name) = false := beq_false_of_ne (Ne.symm hname)
      simp [hname, hother]
  · next first htaken =>
    have hkept : (index.entries.lookup name).or (if e.name = name then some e.id else none) =
        index.entries.lookup name := by
      by_cases hname : e.name = name
      · rw [← hname, htaken, Option.some_or]
      · rw [if_neg hname, Option.or_none]
    rw [hkept]
    split <;> rfl

theorem NameIndex.lookup_foldl_add (entities : List Entity) (index : NameIndex)
    (name : NamePath) : (entities.foldl NameIndex.add index).entries.lookup name =
      (index.entries.lookup name).or ((firstNamed entities name).map Entity.id) := by
  induction entities generalizing index with
  | nil => simp [firstNamed]
  | cons e entities ih =>
    rw [List.foldl_cons, ih, NameIndex.lookup_add, Option.or_assoc]
    by_cases hname : e.name = name <;> simp [firstNamed, hname]

/-- The index has each name with the first entity that is called so. -/
theorem World.lookup_nameIndex (w : World) (name : NamePath) :
    w.nameIndex.entries.lookup name = (firstNamed w.entities name).map Entity.id := by
  rw [World.nameIndex, NameIndex.lookup_foldl_add, List.lookup_nil, Option.none_or]

/-- A name resolves to the id of the first entity that is called so, if it has one. -/
theorem World.lookup_eq_some_iff {w : World} {name : NamePath} {id : EntityId} :
    w.lookup name = some id ↔
      id ≠ .anonymous ∧ ∃ e, firstNamed w.entities name = some e ∧ e.id = id := by
  rw [← Option.map_eq_some_iff, ← World.lookup_nameIndex, World.lookup]
  split
  · next hfound =>
    rw [hfound, Option.some.injEq]
    constructor
    · intro hnone
      cases hnone
    · rintro ⟨hid, rfl⟩
      exact absurd rfl hid
  · next hnamed =>
    constructor
    · intro hfound
      refine ⟨?_, hfound⟩
      rintro rfl
      exact hnamed hfound
    · exact And.right

/-- What a name resolves to is an entity of the world. -/
theorem World.mem_of_lookup {w : World} {name : NamePath} {id : EntityId}
    (h : w.lookup name = some id) : ∃ e ∈ w.entities, e.id = id := by
  obtain ⟨-, e, hfirst, hid⟩ := World.lookup_eq_some_iff.mp h
  exact ⟨e, List.mem_of_find?_eq_some hfirst, hid⟩

/-- In a longer list every name that was taken stays with its first entity. -/
theorem firstNamed_append {entities : List Entity} {name : NamePath} {e : Entity}
    (h : firstNamed entities name = some e) (more : List Entity) :
    firstNamed (entities ++ more) name = some e := by
  rw [firstNamed, List.find?_append]
  rw [firstNamed] at h
  rw [h, Option.some_or]

end TextAdventure
