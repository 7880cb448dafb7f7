import Mathlib.Data.List.Induction
import TextAdventure.Game.Player
import TextAdventure.Proofs.World.Building
import TextAdventure.Proofs.World.Names

/-!
# Names of entities

The names of a world are entered in one pass over its entities, and each name stands for
the first entity that has it.  The pass keeps an invariant: behind some entities, the clashes
are those of each of them with the first one before it that has its name
(`NameIndex.clashes_foldl_add`).  What tells two entities apart in the pass is the id, so
the ids have to be different, which they are in a world.

A name may be written with points or given as its words.  Both lead to the same entity,
since the words of an entity are read back from its dotted name.  So to describe what the
dotted name of an entity stands for is to look around where that entity is.
-/

namespace TextAdventure

/-! ## Clashes -/

/-- The clash of an entity with the first of some others that has its name, if there is one. -/
def Entity.clash? (earlier : List Entity) (e : Entity) : Option NameClash :=
  (firstNamed earlier e.name).map fun first => ⟨e.name, e.id, first.id⟩

/-- The clash of each entity with those before it, in the order of the entities. -/
def clashesOf (entities : List Entity) : List NameClash :=
  entities.zipIdx.filterMap fun (e, position) => e.clash? (entities.take position)

theorem clashesOf_concat (entities : List Entity) (e : Entity) :
    clashesOf (entities ++ [e]) = clashesOf entities ++ (e.clash? entities).toList := by
  have hearlier : ∀ p ∈ entities.zipIdx,
      p.1.clash? ((entities ++ [e]).take p.2) = p.1.clash? (entities.take p.2) := by
    rintro ⟨d, position⟩ hp
    obtain ⟨hposition, -⟩ := List.getElem?_eq_some_iff.mp (List.mem_zipIdx_iff_getElem?.mp hp)
    rw [List.take_append_of_le_length (Nat.le_of_lt hposition)]
  rw [clashesOf, List.zipIdx_append, List.filterMap_append, List.filterMap_congr hearlier,
    clashesOf]
  congr 1
  cases hclash : e.clash? entities <;> simp [hclash]

/-- The clash that an entity adds, if the index has the names of those before it and none of these
has its id. -/
theorem NameIndex.clashes_add {index : NameIndex} {earlier : List Entity} {e : Entity}
    (hindex : index.entries.lookup e.name = (firstNamed earlier e.name).map Entity.id)
    (hid : ∀ d ∈ earlier, d.id ≠ e.id) :
    (index.add e).clashes = index.clashes ++ (e.clash? earlier).toList := by
  unfold NameIndex.add Entity.clash?
  cases hfirst : firstNamed earlier e.name with
  | none =>
    rw [hfirst, Option.map_none] at hindex
    simp [hindex]
  | some first =>
    rw [hfirst, Option.map_some] at hindex
    have hother : first.id ≠ e.id := hid first (List.mem_of_find?_eq_some hfirst)
    simp [hindex, hother]

/-- The invariant of the pass.  The induction takes away the last entity, since the clash of an
entity depends on those before it. -/
theorem NameIndex.clashes_foldl_add {entities : List Entity}
    (h : (entities.map Entity.id).Nodup) :
    (entities.foldl NameIndex.add ⟨[], []⟩).clashes = clashesOf entities := by
  induction entities using List.reverseRecOn with
  | nil => rfl
  | append_singleton entities e ih =>
    rw [List.map_append, List.nodup_append] at h
    obtain ⟨hearlier, -, hids⟩ := h
    have hid : ∀ d ∈ entities, d.id ≠ e.id := fun d hd =>
      hids d.id (List.mem_map_of_mem hd) e.id (by simp)
    have hindex : (entities.foldl NameIndex.add ⟨[], []⟩).entries.lookup e.name =
        (firstNamed entities e.name).map Entity.id := by
      rw [NameIndex.lookup_foldl_add, List.lookup_nil, Option.none_or]
    rw [List.foldl_append, List.foldl_cons, List.foldl_nil, NameIndex.clashes_add hindex hid,
      ih hearlier, clashesOf_concat]

theorem World.clashes_eq (w : World) : w.clashes = clashesOf w.entities :=
  NameIndex.clashes_foldl_add w.ids_nodup

/-! ## Dotted names -/

theorem Entity.dotted_inj {d e : Entity} : d.name.dotted = e.name.dotted ↔ d.name = e.name := by
  constructor
  · intro h
    rw [← d.ofDotted_dotted_name, h, e.ofDotted_dotted_name]
  · exact congrArg NamePath.dotted

theorem Entity.name_of_make {id : EntityId} {path : NamePath} {short long : String}
    {attributes : List Attribute} {nickname : Option String} {e : Entity}
    (h : Entity.make id path short long attributes nickname = .ok e) : e.name = path := by
  unfold Entity.make at h
  split at h
  · split at h <;> cases h
    rfl
  · cases h

theorem World.lookupDotted_dotted (w : World) (e : Entity) :
    w.lookupDotted e.name.dotted = w.lookup e.name := by
  rw [World.lookupDotted, e.ofDotted_dotted_name]

/-! ## What names stand for -/

/-- A name stands for the id of the first entity that has it, unless that entity has no id. -/
theorem World.lookup_eq (w : World) (path : NamePath) :
    w.lookup path = ((firstNamed w.entities path).map Entity.id).filter (· ≠ .anonymous) := by
  rw [← World.lookup_nameIndex, World.lookup]
  split
  · next hanonymous =>
    rw [hanonymous]
    rfl
  · next hid =>
    cases hfound : w.nameIndex.entries.lookup path with
    | none => rfl
    | some id =>
      have hne : id ≠ .anonymous := by
        rintro rfl
        exact hid hfound
      simp [Option.filter, hne]

/-- What the dotted name of an entity stands for is described as it looks from there. -/
theorem Player.examine_dotted {w : World} {e : Entity}
    (hfirst : firstNamed w.entities e.name = some e) (hid : e.id ≠ .anonymous)
    (width : Int) (here : EntityId) :
    (Player.mk w here width).examine e.name.dotted = (Player.mk w e.id width).look := by
  have hlookup : w.lookupDotted e.name.dotted = some e.id := by
    rw [w.lookupDotted_dotted]
    exact World.lookup_eq_some_iff.mpr ⟨hid, e, hfirst, rfl⟩
  -- The place of the player has no part in what is seen of an entity.
  calc (Player.mk w here width).examine e.name.dotted
      = (Player.mk w here width).viewOf e.id := by rw [Player.examine, hlookup]
    _ = (Player.mk w e.id width).look := rfl

/-- In a world that was built of entities a name stands for the first one that has it, written as
words or with points, and each entity whose name was taken before clashes with that first one.  The
dotted name of an entity reads back as its words.  An entity that is first with its name, and has
an id, is described by its name as a player sees it who is there. -/
theorem World.names_resolve {name : String} {entities : List Entity} {start : EntityId} {w : World}
    (h : World.build name entities start = .ok w) :
    (∀ path, w.lookup path =
        ((firstNamed entities path).map Entity.id).filter (· ≠ .anonymous)) ∧
      (∀ dotted, w.lookupDotted dotted = w.lookup (NamePath.ofDotted dotted)) ∧
      w.clashes = clashesOf entities ∧
      (∀ clash : NameClash, clash.message = "Name " ++ clash.name.dotted ++ " of entity " ++
        clash.id.display ++ " is already used by entity " ++ clash.first.display) ∧
      (∀ id path short long attributes nickname (e : Entity),
        Entity.make id path short long attributes nickname = .ok e →
          e.name = path ∧ NamePath.ofDotted e.name.dotted = e.name) ∧
      (∀ d e : Entity, d.name.dotted = e.name.dotted ↔ d.name = e.name) ∧
      (∀ e : Entity, w.lookupDotted e.name.dotted = w.lookup e.name) ∧
      ∀ e : Entity, firstNamed entities e.name = some e → e.id ≠ .anonymous →
        ∀ (width : Int) (here : EntityId),
          (Player.mk w here width).examine e.name.dotted = (Player.mk w e.id width).look := by
  obtain rfl := World.entities_of_build h
  refine ⟨w.lookup_eq, fun _ => rfl, w.clashes_eq, fun _ => rfl, ?_, fun _ _ => Entity.dotted_inj,
    w.lookupDotted_dotted, fun e hfirst hid => Player.examine_dotted hfirst hid⟩
  intro id path short long attributes nickname e hmake
  exact ⟨Entity.name_of_make hmake, e.ofDotted_dotted_name⟩

/-- A second door has the name of the first one, which keeps it. -/
theorem World.names_resolve_door :
    let copy : Entity := { Example.door with id := .number 7, attributes := [] }
    let entities := [Example.room, Example.door, copy]
    ∃ w, World.build "Cellar" entities Example.roomId = .ok w ∧
      firstNamed entities Example.door.name = some Example.door ∧
      Example.door.id ≠ .anonymous ∧
      w.clashes = [⟨["rusty", "metal", "door"], .number 7, Example.doorId⟩] ∧
      (Player.mk w (.number 7) 40).examine "rusty.metal.door" =
        (Player.mk w Example.doorId 40).look := by
  intro copy entities
  have hids : (entities.map Entity.id).Nodup := by decide
  have hstart : Example.roomId ∈ entities.map Entity.id := by decide
  have hbuild : World.build "Cellar" entities Example.roomId =
      .ok ⟨"Cellar", entities, Example.roomId, hids, hstart⟩ := by
    rw [World.build_of_nodup _ hids, dif_pos hstart]
  have hfirst : firstNamed entities Example.door.name = some Example.door := by rfl
  obtain ⟨-, -, hclashes, -, -, -, -, hlook⟩ := World.names_resolve hbuild
  exact ⟨_, hbuild, hfirst, by decide, hclashes, hlook Example.door hfirst (by decide) 40 _⟩

end TextAdventure
