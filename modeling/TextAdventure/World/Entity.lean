import TextAdventure.Text.Quoted
import TextAdventure.World.NamePath

/-!
# Entities

Everything in a world is an entity.  An entity has an id, a name path that
templates and players call it by, two description templates and a list of
attributes.

An entity is made by `Entity.make`, which refuses a name that could not be
written with points between its words.  So the dotted name of an entity always
reads back as its name path (`Entity.ofDotted_dotted_name`).
-/

namespace TextAdventure

/-! ## Ids -/

/-- What an entity is known by.  Ids may be of any kind: of those that are neither nothing, nor
numbers, texts or universally unique ids, only matters which are the same and how they are shown. -/
inductive EntityId where
  /-- No id at all, which one entity of a world may have. -/
  | anonymous
  /-- A number. -/
  | number (value : Int)
  /-- A text. -/
  | label (text : String)
  /-- A universally unique id, given by its 128 bits as a number. -/
  | unique (bits : Nat)
  /-- An id of another kind, given by a number that tells it from the others, by how it is shown,
  and by how it is shown in full. -/
  | other (key : Nat) (shown full : String)
deriving DecidableEq, Repr

/-- The 32 digits of a universally unique id in groups of 8, 4, 4, 4 and 12. -/
def uniqueText (bits : Nat) : String :=
  let digits := Text.hexDigits 32 bits
  String.ofList (digits.take 8 ++ '-' :: ((digits.drop 8).take 4 ++ '-' ::
    ((digits.drop 12).take 4 ++ '-' :: ((digits.drop 16).take 4 ++ '-' :: digits.drop 20))))

/-- An id as it is shown in messages. -/
def EntityId.display : EntityId → String
  | .anonymous => "None"
  | .number value => toString value
  | .label text => text
  | .unique bits => uniqueText bits
  | .other _ shown _ => shown

/-! ## Attributes -/

/-- A fact about an entity. -/
inductive Attribute where
  /-- It can be closed, and is or is not. -/
  | closable (closed : Bool)
  /-- It can be locked, and is or is not. -/
  | lockable (locked : Bool)
  /-- It joins two places. -/
  | doorlike (here there : EntityId)
  /-- It holds entities as a room does. -/
  | roomlike (contents : List EntityId)
  /-- It carries entities as a person does. -/
  | characterlike (inventory : List EntityId)
deriving DecidableEq, Repr

/-- The kinds of attribute. -/
inductive AttributeKind where
  /-- Every attribute is of this kind. -/
  | any
  | closable
  | lockable
  | doorlike
  | roomlike
  | characterlike
deriving DecidableEq, Repr

/-- Decide whether an attribute is of a kind. -/
def Attribute.isOf : AttributeKind → Attribute → Bool
  | .any, _ => true
  | .closable, .closable _ => true
  | .lockable, .lockable _ => true
  | .doorlike, .doorlike .. => true
  | .roomlike, .roomlike _ => true
  | .characterlike, .characterlike _ => true
  | _, _ => false

/-! ## Errors -/

/-- Why an entity or a world cannot be made. -/
inductive WorldError where
  /-- The name of the entity has no word or an empty one. -/
  | emptyName (id : EntityId)
  /-- A word of the name of the entity has a point in it. -/
  | pointInWord (id : EntityId)
  /-- Two entities have the id. -/
  | duplicateId (id : EntityId)
  /-- No entity has the id of the start location. -/
  | unknownStart (id : EntityId)
deriving DecidableEq, Repr

/-- What is said about an entity or a world that cannot be made. -/
def WorldError.message : WorldError → String
  | .emptyName id => "Entity " ++ id.display ++ " needs a non-empty name path"
  | .pointInWord id => "Entity " ++ id.display ++ " name words cannot contain '.'"
  | .duplicateId id => "Duplicate entity id: " ++ id.display
  | .unknownStart id => "Unknown start location: " ++ id.display

/-! ## Entities -/

/-- A thing in a world. -/
structure Entity where
  /-- What it is known by. -/
  id : EntityId
  /-- What it is called in templates and by players. -/
  name : NamePath
  /-- The template of its one-line description. -/
  shortDescription : String
  /-- The template of its full description. -/
  longDescription : String
  /-- The facts about it. -/
  attributes : List Attribute
  /-- Another name, for people only. -/
  nickname : Option String
  /-- The name has a word. -/
  name_ne_nil : name ≠ []
  /-- No word of the name is empty. -/
  word_ne_empty : ∀ word ∈ name, word ≠ ""
  /-- No word of the name has a point in it. -/
  point_not_mem : ∀ word ∈ name, '.' ∉ word.toList

/-- Make an entity, unless its name could not be written with points. -/
def Entity.make (id : EntityId) (name : NamePath) (shortDescription longDescription : String)
    (attributes : List Attribute) (nickname : Option String) : Except WorldError Entity :=
  if h₁ : name ≠ [] ∧ ∀ word ∈ name, word ≠ "" then
    if h₂ : ∀ word ∈ name, '.' ∉ word.toList then
      .ok ⟨id, name, shortDescription, longDescription, attributes, nickname, h₁.1, h₁.2, h₂⟩
    else .error (.pointInWord id)
  else .error (.emptyName id)

/-- The dotted name of an entity reads back as its name path. -/
theorem Entity.ofDotted_dotted_name (e : Entity) : NamePath.ofDotted e.name.dotted = e.name :=
  NamePath.ofDotted_dotted e.name_ne_nil e.point_not_mem

/-- The first attribute of a kind. -/
def Entity.attribute? (e : Entity) (kind : AttributeKind) : Option Attribute :=
  e.attributes.find? (Attribute.isOf kind)

end TextAdventure
