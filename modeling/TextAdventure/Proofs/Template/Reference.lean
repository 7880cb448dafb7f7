import TextAdventure.Proofs.Template.TwoRuns
import TextAdventure.Proofs.World.Entities
import TextAdventure.Proofs.World.Names
import TextAdventure.World.Example

/-!
# Which entities templates can refer to

An entity can only come into a tree by a name that stands for it and that is not the name
of a function (`exists_token_of_evaluate`), however the tree computes with it.  In a
tree that is read from a text, names are identifiers.  So templates can refer to an
entity if its own dotted name is such an identifier and leads to it (`Nameable`), and
then that name alone, behind a sigil, refers to it (`refers_iff`).
-/

namespace TextAdventure

/-- A name resolves to an entity of the world if it is the first that is called so, and has an
id. -/
theorem World.lookup_eq_id_iff {w : World} {e : Entity} (he : e ∈ w.entities) {name : NamePath} :
    w.lookup name = some e.id ↔ e.id ≠ .anonymous ∧ firstNamed w.entities name = some e := by
  rw [World.lookup_eq_some_iff]
  constructor
  · rintro ⟨hid, d, hfirst, hsame⟩
    obtain rfl := World.eq_of_id_eq (List.mem_of_find?_eq_some hfirst) he hsame
    exact ⟨hid, hfirst⟩
  · rintro ⟨hid, hfirst⟩
    exact ⟨hid, e, hfirst, rfl⟩

theorem name_eq_of_firstNamed {entities : List Entity} {name : NamePath} {e : Entity}
    (h : firstNamed entities name = some e) : e.name = name := by
  simpa using List.find?_some h

namespace Template

/-! ## Where entities come from -/

/-- An entity that a tree leads to is what a name in it stands for. -/
theorem exists_token_of_evaluate {w : World} {n : Node} {id : EntityId}
    (h : evaluate w n = .ok (.entity id)) :
    ∃ token ∈ n.tokens, builtin? token = none ∧ w.lookupDotted token = some id := by
  have hmirrors : Mirrors (Value.IsWithin fun id =>
      ∃ token ∈ n.tokens, builtin? token = none ∧ w.lookupDotted token = some id)
      (fun _ => True) (fun _ => False) (evaluate w n) (evaluate w n) := by
    refine mirrors_evaluate (.refl _ w) fun token htoken => ?_
    exact mirrors_evaluateName (fun _ _ => trivial)
      (fun hbuiltin id hid => ⟨⟨token, htoken, hbuiltin, hid⟩, hid⟩) .inl
  cases hmirrors.good_of_ok h with
  | entity hfrom => exact hfrom

theorem builtin?_eq_none_iff {token : String} :
    builtin? token = none ↔ token ∉ ["if", "closed", "locked"] := by
  unfold builtin?
  split_ifs <;> simp_all

theorem evaluate_name {w : World} {token : String} {id : EntityId}
    (hbuiltin : builtin? token = none) (hid : w.lookupDotted token = some id) :
    evaluate w (.name token) = .ok (.entity id) := by
  show evaluateName w token = _
  simp only [evaluateName, hbuiltin, hid]

/-! ## Names of entities -/

/-- The dotted name of an entity is an identifier that leads to it. -/
structure Nameable (w : World) (e : Entity) : Prop where
  /-- No entity before it has the same name. -/
  first : firstNamed w.entities e.name = some e
  /-- It has an id. -/
  id : e.id ≠ .anonymous
  identifier : IsName e.name.dotted
  /-- No function has this name. -/
  unreserved : e.name.dotted ∉ ["if", "closed", "locked"]

/-- Templates can refer to an entity if and only if its dotted name is an identifier that leads to
it, and then that name behind a sigil does. -/
theorem refers_iff {w : World} {e : Entity} (he : e ∈ w.entities) :
    ((∃ text n, parse text = .ok n ∧ evaluate w n = .ok (.entity e.id)) ↔ Nameable w e) ∧
      (Nameable w e →
        ∃ n, parse ("#" ++ e.name.dotted) = .ok n ∧ evaluate w n = .ok (.entity e.id)) := by
  have hown : Nameable w e →
      ∃ n, parse ("#" ++ e.name.dotted) = .ok n ∧ evaluate w n = .ok (.entity e.id) := by
    intro h
    have hlookup : w.lookupDotted e.name.dotted = some e.id := by
      rw [World.lookupDotted, e.ofDotted_dotted_name]
      exact (World.lookup_eq_id_iff he).mpr ⟨h.id, h.first⟩
    exact ⟨_, parse_of_isName h.identifier,
      evaluate_name (builtin?_eq_none_iff.mpr h.unreserved) hlookup⟩
  refine ⟨⟨?_, fun h => ⟨_, hown h⟩⟩, hown⟩
  rintro ⟨text, n, hparse, hvalue⟩
  obtain ⟨token, htoken, hbuiltin, hlookup⟩ := exists_token_of_evaluate hvalue
  obtain ⟨hid, hfirst⟩ := (World.lookup_eq_id_iff he).mp hlookup
  -- The name that the text has is the dotted name of the entity.
  have hname := name_eq_of_firstNamed hfirst
  have hdotted : e.name.dotted = token := by rw [hname, NamePath.dotted_ofDotted]
  exact ⟨hname ▸ hfirst, hid, hdotted ▸ isName_of_parse hparse token htoken,
    hdotted ▸ builtin?_eq_none_iff.mp hbuiltin⟩

/-- The door is the first entity with its name, which is an identifier. -/
theorem refers_iff_door :
    Example.door ∈ Example.world.entities ∧ Nameable Example.world Example.door ∧
      ∃ n, parse ("#" ++ "rusty.metal.door") = .ok n ∧
        evaluate Example.world n = .ok (.entity Example.doorId) := by
  have hmem : Example.door ∈ Example.world.entities := by simp [Example.world]
  have hletters : "usty.metal.door".toList.all isNameChar = true := by decide
  have hname : IsName Example.door.name.dotted :=
    ⟨'r', "usty.metal.door".toList, rfl, rfl, List.all_eq_true.mp hletters⟩
  have hnameable : Nameable Example.world Example.door := ⟨rfl, by decide, hname, by decide⟩
  exact ⟨hmem, hnameable, (refers_iff hmem).2 hnameable⟩

end Template

end TextAdventure
