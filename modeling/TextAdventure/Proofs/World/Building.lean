import TextAdventure.Proofs.World.Entities
import TextAdventure.World.Example

/-!
# Building worlds

A list of entities makes a world unless two of them share an id, or none of them is the
start.  The first of the two is reported first, with the id at the earliest position where
an id stands that has occurred before (`IsFirstRepeat`).

In a world that was built the ids lead to the positions of their entities, one to one
(`World.lookup_positions_iff`).  So an id finds the entity that has it and no other, and an
attribute is found through the id as it is found in the entity.
-/

namespace TextAdventure

/-! ## Repeated ids -/

/-- The id stands behind itself, and no id in front of there stands behind itself. -/
def IsFirstRepeat (ids : List EntityId) (id : EntityId) : Prop :=
  ∃ before after, ids = before ++ id :: after ∧ id ∈ before ∧ before.Nodup

/-- Two entities at different positions have the same id. -/
def SharesId (entities : List Entity) : Prop :=
  ∃ (i j : Nat) (d e : Entity),
    i < j ∧ entities[i]? = some d ∧ entities[j]? = some e ∧ d.id = e.id

theorem sharesId_iff (entities : List Entity) :
    SharesId entities ↔ ¬ (entities.map Entity.id).Nodup := by
  rw [List.nodup_iff_getElem?_ne_getElem?]
  constructor
  · rintro ⟨i, j, d, e, hij, hd, he, hid⟩ hdistinct
    have hj : j < entities.length := (List.getElem?_eq_some_iff.mp he).1
    refine hdistinct i j hij (by simpa using hj) ?_
    rw [List.getElem?_map, List.getElem?_map, hd, he, Option.map_some, Option.map_some, hid]
  · intro hsame
    push Not at hsame
    obtain ⟨i, j, hij, hj, heq⟩ := hsame
    rw [List.length_map] at hj
    have hi : i < entities.length := Nat.lt_trans hij hj
    refine ⟨i, j, entities[i], entities[j], hij, List.getElem?_eq_getElem hi,
      List.getElem?_eq_getElem hj, ?_⟩
    simpa [hi, hj] using heq

/-- What the search finds behind ids that it has seen.  The induction is on the ids to come, and
those that were passed are among the seen ones. -/
theorem firstRepeat_eq_some_iff (seen ids : List EntityId) (id : EntityId) :
    firstRepeat seen ids = some id ↔
      ∃ before after, ids = before ++ id :: after ∧ (id ∈ before ∨ id ∈ seen) ∧ before.Nodup ∧
        ∀ x ∈ before, x ∉ seen := by
  induction ids generalizing seen with
  | nil => simp [firstRepeat]
  | cons x ids ih =>
    by_cases hx : x ∈ seen
    · rw [firstRepeat, if_pos hx, Option.some.injEq]
      constructor
      · rintro rfl
        exact ⟨[], ids, rfl, .inr hx, List.nodup_nil, by simp⟩
      · rintro ⟨before, after, hids, -, -, hfresh⟩
        cases before with
        | nil => exact (List.cons.inj hids).1
        | cons y before =>
          rw [(List.cons.inj hids).1] at hx
          exact absurd hx (hfresh y List.mem_cons_self)
    · rw [firstRepeat, if_neg hx, ih]
      constructor
      · rintro ⟨before, after, rfl, hseen, hnodup, hfresh⟩
        have hxBefore : x ∉ before := fun h => hfresh x h List.mem_cons_self
        refine ⟨x :: before, after, rfl, ?_, List.nodup_cons.mpr ⟨hxBefore, hnodup⟩,
          List.forall_mem_cons.mpr ⟨hx, fun y hy h => hfresh y hy (List.mem_cons_of_mem x h)⟩⟩
        simpa [or_assoc, or_left_comm, List.mem_cons] using hseen
      · rintro ⟨before, after, hids, hseen, hnodup, hfresh⟩
        cases before with
        | nil =>
          obtain ⟨rfl, -⟩ := List.cons.inj hids
          exact absurd (hseen.resolve_left (by simp)) hx
        | cons y before =>
          obtain ⟨rfl, rfl⟩ := List.cons.inj hids
          obtain ⟨hyBefore, hnodup⟩ := List.nodup_cons.mp hnodup
          obtain ⟨-, hfresh⟩ := List.forall_mem_cons.mp hfresh
          refine ⟨before, after, rfl, ?_, hnodup, fun z hz h => ?_⟩
          · simpa [or_assoc, or_left_comm, List.mem_cons] using hseen
          · rcases List.mem_cons.mp h with rfl | hz'
            · exact hyBefore hz
            · exact hfresh z hz hz'

theorem firstRepeat_nil_eq_some_iff {ids : List EntityId} {id : EntityId} :
    firstRepeat [] ids = some id ↔ IsFirstRepeat ids id := by
  simp [firstRepeat_eq_some_iff, IsFirstRepeat]

theorem IsFirstRepeat.not_nodup {ids : List EntityId} {id : EntityId} (h : IsFirstRepeat ids id) :
    ¬ ids.Nodup := by
  obtain ⟨before, after, rfl, hmem, -⟩ := h
  intro hnodup
  exact (List.nodup_append.mp hnodup).2.2 id hmem id List.mem_cons_self rfl

theorem exists_isFirstRepeat {ids : List EntityId} (h : ¬ ids.Nodup) :
    ∃ id, IsFirstRepeat ids id := by
  cases hrepeat : firstRepeat [] ids with
  | none => exact absurd (nodup_of_firstRepeat hrepeat).1 h
  | some id => exact ⟨id, firstRepeat_nil_eq_some_iff.mp hrepeat⟩

/-! ## The outcome of building -/

section
variable (name : String) {entities : List Entity} {start : EntityId}

theorem World.build_of_isFirstRepeat {id : EntityId}
    (h : IsFirstRepeat (entities.map Entity.id) id) :
    World.build name entities start = .error (.duplicateId id) := by
  have hrepeat := firstRepeat_nil_eq_some_iff.mpr h
  unfold World.build
  split
  · next other hother =>
    rw [hrepeat] at hother
    cases hother
    rfl
  · next hnone =>
    rw [hrepeat] at hnone
    cases hnone

theorem World.build_of_nodup (h : (entities.map Entity.id).Nodup) :
    World.build name entities start =
      if hs : start ∈ entities.map Entity.id then .ok ⟨name, entities, start, h, hs⟩
      else .error (.unknownStart start) := by
  unfold World.build
  split
  · next id hrepeat => exact absurd h (firstRepeat_nil_eq_some_iff.mp hrepeat).not_nodup
  · rfl

theorem World.build_eq_duplicateId_iff {id : EntityId} :
    World.build name entities start = .error (.duplicateId id) ↔
      IsFirstRepeat (entities.map Entity.id) id := by
  refine ⟨fun h => ?_, World.build_of_isFirstRepeat name⟩
  by_cases hnodup : (entities.map Entity.id).Nodup
  · rw [World.build_of_nodup name hnodup] at h
    split at h <;> cases h
  · obtain ⟨other, hother⟩ := exists_isFirstRepeat hnodup
    rw [World.build_of_isFirstRepeat name hother] at h
    cases h
    exact hother

theorem World.build_eq_unknownStart_iff {id : EntityId} :
    World.build name entities start = .error (.unknownStart id) ↔
      id = start ∧ (entities.map Entity.id).Nodup ∧ start ∉ entities.map Entity.id := by
  by_cases hnodup : (entities.map Entity.id).Nodup
  · rw [World.build_of_nodup name hnodup]
    by_cases hstart : start ∈ entities.map Entity.id
    · simp [hstart]
    · simp [hstart, hnodup, eq_comm]
  · obtain ⟨other, hother⟩ := exists_isFirstRepeat hnodup
    simp [World.build_of_isFirstRepeat name hother, hnodup]

end

/-! ## Positions -/

/-- In an association list with different keys a key has the value that stands with it. -/
theorem lookup_eq_some_iff_of_nodup {α β : Type} [BEq α] [LawfulBEq α] {entries : List (α × β)}
    (h : (entries.map Prod.fst).Nodup) {key : α} {value : β} :
    entries.lookup key = some value ↔ (key, value) ∈ entries := by
  rw [List.lookup_eq_some_iff]
  constructor
  · rintro ⟨before, after, rfl, -⟩
    simp
  · intro hmem
    obtain ⟨before, after, rfl⟩ := List.append_of_mem hmem
    refine ⟨before, after, rfl, fun entry hentry => bne_iff_ne.mpr ?_⟩
    rintro rfl
    rw [List.map_append, List.map_cons] at h
    exact (List.nodup_append.mp h).2.2 entry.1 (List.mem_map_of_mem hentry) entry.1
      List.mem_cons_self rfl

theorem World.map_fst_positions (w : World) :
    w.positions.map Prod.fst = w.entities.map Entity.id := by
  rw [World.positions, List.map_map, ← List.zipIdx_map_fst 0 w.entities, List.map_map]
  simp [Function.comp_def]

theorem World.mem_positions_iff {w : World} {id : EntityId} {position : Nat} :
    (id, position) ∈ w.positions ↔ ∃ e, w.entities[position]? = some e ∧ e.id = id := by
  constructor
  · intro h
    obtain ⟨⟨e, i⟩, hmem, heq⟩ := List.mem_map.mp h
    obtain ⟨rfl, rfl⟩ := Prod.mk.inj heq
    exact ⟨e, List.mem_zipIdx_iff_getElem?.mp hmem, rfl⟩
  · rintro ⟨e, he, rfl⟩
    exact List.mem_map.mpr ⟨(e, position), List.mem_zipIdx_iff_getElem?.mpr he, rfl⟩

/-- An id leads to the position of the entity that has it. -/
theorem World.lookup_positions_iff {w : World} {id : EntityId} {position : Nat} :
    w.positions.lookup id = some position ↔
      ∃ e, w.entities[position]? = some e ∧ e.id = id := by
  have hkeys : (w.positions.map Prod.fst).Nodup := by
    rw [w.map_fst_positions]
    exact w.ids_nodup
  rw [lookup_eq_some_iff_of_nodup hkeys, World.mem_positions_iff]

/-! ## What is found in a world -/

/-- What is found by id is what the list of entities has. -/
structure World.IsIndexed (w : World) : Prop where
  /-- The ids that lead to a position are the ids of the entities. -/
  keys_iff : ∀ id, (∃ position, w.positions.lookup id = some position) ↔
    ∃ e ∈ w.entities, e.id = id
  /-- An id leads to the position of the entity that has it. -/
  position_iff : ∀ id position, w.positions.lookup id = some position ↔
    ∃ e, w.entities[position]? = some e ∧ e.id = id
  /-- Different ids lead to different positions. -/
  injective : ∀ id other position, w.positions.lookup id = some position →
    w.positions.lookup other = some position → id = other
  /-- Every position is led to. -/
  onto : ∀ position < w.entities.length, ∃ id, w.positions.lookup id = some position
  /-- An id finds the one entity that has it. -/
  entity_iff : ∀ id e, w.entity? id = some e ↔ e ∈ w.entities ∧ e.id = id
  /-- An id that no entity has finds nothing. -/
  entity_eq_none_iff : ∀ id, w.entity? id = none ↔ ∀ e ∈ w.entities, e.id ≠ id
  /-- The attribute that is found is the first one of its kind that the entity has. -/
  attribute_iff : ∀ id kind a, w.attribute? id kind = some a ↔ ∃ e ∈ w.entities, e.id = id ∧
    ∃ before after, e.attributes = before ++ a :: after ∧ a.isOf kind = true ∧
      ∀ b ∈ before, b.isOf kind = false
  /-- No attribute is found where there is no entity, or none of the kind in it. -/
  attribute_eq_none_iff : ∀ id kind, w.attribute? id kind = none ↔
    ∀ e ∈ w.entities, e.id = id → ∀ a ∈ e.attributes, a.isOf kind = false

theorem Entity.attribute?_eq_some_iff {e : Entity} {kind : AttributeKind} {a : Attribute} :
    e.attribute? kind = some a ↔ ∃ before after, e.attributes = before ++ a :: after ∧
      a.isOf kind = true ∧ ∀ b ∈ before, b.isOf kind = false := by
  rw [Entity.attribute?, List.find?_eq_some_iff_append]
  constructor
  · rintro ⟨hkind, before, after, hattributes, hbefore⟩
    exact ⟨before, after, hattributes, hkind, by simpa using hbefore⟩
  · rintro ⟨before, after, hattributes, hkind, hbefore⟩
    exact ⟨hkind, before, after, hattributes, by simpa using hbefore⟩

theorem World.attribute?_eq_some_iff {w : World} {id : EntityId} {kind : AttributeKind}
    {a : Attribute} : w.attribute? id kind = some a ↔
      ∃ e ∈ w.entities, e.id = id ∧ e.attribute? kind = some a := by
  simp only [World.attribute?, Option.bind_eq_some_iff, World.entity?_eq_some_iff, and_assoc]

theorem World.entity?_eq_none_iff {w : World} {id : EntityId} :
    w.entity? id = none ↔ ∀ e ∈ w.entities, e.id ≠ id := by
  simp [World.entity?_eq_find?]

theorem World.attribute?_eq_none_iff {w : World} {id : EntityId} {kind : AttributeKind} :
    w.attribute? id kind = none ↔
      ∀ e ∈ w.entities, e.id = id → ∀ a ∈ e.attributes, a.isOf kind = false := by
  simp [World.attribute?, Entity.attribute?, World.entity?_eq_some_iff]

theorem World.isIndexed (w : World) : w.IsIndexed where
  keys_iff id := by
    simp only [World.lookup_positions_iff]
    constructor
    · rintro ⟨position, e, he, hid⟩
      exact ⟨e, List.mem_of_getElem? he, hid⟩
    · rintro ⟨e, he, hid⟩
      obtain ⟨position, hposition⟩ := List.mem_iff_getElem?.mp he
      exact ⟨position, e, hposition, hid⟩
  position_iff _ _ := World.lookup_positions_iff
  injective id other position hid hother := by
    obtain ⟨e, he, rfl⟩ := World.lookup_positions_iff.mp hid
    obtain ⟨d, hd, rfl⟩ := World.lookup_positions_iff.mp hother
    rw [Option.some.inj (he.symm.trans hd)]
  onto position hposition :=
    ⟨w.entities[position].id,
      World.lookup_positions_iff.mpr ⟨_, List.getElem?_eq_getElem hposition, rfl⟩⟩
  entity_iff _ _ := World.entity?_eq_some_iff
  entity_eq_none_iff _ := World.entity?_eq_none_iff
  attribute_iff _ _ _ := by
    simp only [World.attribute?_eq_some_iff, Entity.attribute?_eq_some_iff]
  attribute_eq_none_iff _ _ := World.attribute?_eq_none_iff

end TextAdventure
