import TextAdventure.Proofs.World.Entities
import TextAdventure.Proofs.World.Names

/-!
# Changes that names do not show

Three facts about an entity can be learned through its name: its id, and whether it is
closed and locked (`Entity.facts`).  They are learned of the first entity with the name
only.  So to those who know some names, two lists of entities look alike if the one
becomes the other by describing entities anew, by moving an entity past one with
another name, and by adding or taking away entities with names that are not among
those (`LooksAlike`).  Worlds of such entities answer alike what can be asked by the
names (`World.lookup_eq_of_facts`, `World.flags_eq_of_facts`).
-/

namespace TextAdventure

/-- What can be learned of an entity through its name: its id, and whether it is closed and
locked. -/
def Entity.facts (e : Entity) : EntityId × Bool × Bool := (e.id, e.isClosed, e.isLocked)

/-- Two lists of entities that look alike to those who know some names only. -/
inductive LooksAlike (names : List NamePath) : List Entity → List Entity → Prop where
  | nil : LooksAlike names [] []
  /-- An entity has other descriptions, another nickname and other attributes, but states the same
  facts. -/
  | redescribed {e e' : Entity} {entities entities' : List Entity} (name : e'.name = e.name)
      (facts : e'.facts = e.facts) (rest : LooksAlike names entities entities') :
      LooksAlike names (e :: entities) (e' :: entities')
  /-- An entity stands behind one with another name. -/
  | moved {e d : Entity} (entities : List Entity) (name : e.name ≠ d.name) :
      LooksAlike names (e :: d :: entities) (d :: e :: entities)
  /-- An entity with none of the names is new. -/
  | added {e : Entity} {entities entities' : List Entity} (name : e.name ∉ names)
      (rest : LooksAlike names entities entities') : LooksAlike names entities (e :: entities')
  /-- An entity with none of the names is gone. -/
  | removed {e : Entity} {entities entities' : List Entity} (name : e.name ∉ names)
      (rest : LooksAlike names entities entities') : LooksAlike names (e :: entities) entities'
  | trans {first second third : List Entity} (before : LooksAlike names first second)
      (behind : LooksAlike names second third) : LooksAlike names first third

theorem firstNamed_cons (e : Entity) (entities : List Entity) (name : NamePath) :
    firstNamed (e :: entities) name =
      if e.name = name then some e else firstNamed entities name := by
  by_cases h : e.name = name <;> simp [firstNamed, h]

/-- Each of the names leads to the same facts in lists that look alike. -/
theorem LooksAlike.facts_eq {names : List NamePath} {entities entities' : List Entity}
    (h : LooksAlike names entities entities') {name : NamePath} (hname : name ∈ names) :
    (firstNamed entities' name).map Entity.facts = (firstNamed entities name).map Entity.facts := by
  induction h with
  | nil => rfl
  | @redescribed e e' _ _ hsame hfacts _ ih =>
    rw [firstNamed_cons, firstNamed_cons, hsame]
    split
    · rw [Option.map_some, Option.map_some, hfacts]
    · exact ih
  | @moved e d entities hother =>
    simp only [firstNamed_cons]
    split
    · next hd => rw [if_neg fun he => hother (he.trans hd.symm)]
    · rfl
  | @added e _ _ hnew _ ih =>
    rw [firstNamed_cons, if_neg fun he : e.name = name => hnew (he ▸ hname)]
    exact ih
  | @removed e _ _ hgone _ ih =>
    rw [firstNamed_cons e, if_neg fun he : e.name = name => hgone (he ▸ hname)]
    exact ih
  | trans _ _ ih ih' => exact ih'.trans ih

/-! ## Worlds -/

section
variable {w w' : World} {name : NamePath}
  (h : (firstNamed w'.entities name).map Entity.facts =
    (firstNamed w.entities name).map Entity.facts)

include h

theorem World.lookup_eq_of_facts : w'.lookup name = w.lookup name := by
  have hids := congrArg (Option.map Prod.fst) h
  rw [Option.map_map, Option.map_map] at hids
  have hentries : w'.nameIndex.entries.lookup name = w.nameIndex.entries.lookup name := by
    rw [World.lookup_nameIndex, World.lookup_nameIndex]
    exact hids
  rw [World.lookup, World.lookup, hentries]

/-- What a name leads to is closed and locked in both worlds alike. -/
theorem World.flags_eq_of_facts {id : EntityId} (hid : w.lookup name = some id) :
    w'.isClosed id = w.isClosed id ∧ w'.isLocked id = w.isLocked id := by
  obtain ⟨-, e, hfirst, rfl⟩ := World.lookup_eq_some_iff.mp hid
  rw [hfirst, Option.map_some, Option.map_eq_some_iff] at h
  obtain ⟨e', hfirst', hfacts⟩ := h
  obtain ⟨hsame, hclosed, hlocked⟩ : e'.id = e.id ∧ e'.isClosed = e.isClosed ∧
      e'.isLocked = e.isLocked := by simpa [Entity.facts] using hfacts
  have he := List.mem_of_find?_eq_some hfirst
  have he' := List.mem_of_find?_eq_some hfirst'
  rw [World.isClosed_of_mem he, World.isLocked_of_mem he, ← hsame, World.isClosed_of_mem he',
    World.isLocked_of_mem he']
  exact ⟨hclosed, hlocked⟩

end

end TextAdventure
