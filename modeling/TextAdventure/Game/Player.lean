import TextAdventure.Template.Rendering
import TextAdventure.Text.Wrap
import TextAdventure.World.Example

/-!
# What players see

A player stands at a place in a world and reads descriptions of entities: the
short one and then the long one, both rendered and wrapped.  A template that
cannot be rendered gives a line that says so, and that line is not wrapped.
-/

namespace TextAdventure

/-- A player in a world. -/
structure Player where
  /-- The world. -/
  world : World
  /-- The id of the entity where the player is. -/
  location : EntityId
  /-- The width of the lines shown to the player. -/
  width : Int

/-- A player at the start of a world, with lines of the default width. -/
def Player.atStart (w : World) : Player := ⟨w, w.start, Text.defaultWidth⟩

/-- A short description of a player. -/
def Player.describe (p : Player) : String := "PlayerState<" ++ p.location.display ++ ">"

/-- Why a player sees nothing. -/
inductive ViewError where
  /-- The player is at a place that is no entity of the world. -/
  | nowhere
  /-- The lines of the player have an impossible width. -/
  | width (e : Text.WidthError)
deriving DecidableEq, Repr

/-- What is said where a player sees nothing. -/
def ViewError.message : ViewError → String
  | .nowhere => "'NoneType' object has no attribute 'short_description'"
  | .width e => e.message

/-- The lines of a template. -/
def Player.read (p : Player) (template : String) : Except ViewError (List String) :=
  match Template.render p.world template with
  | .error e => .ok ["an error has occurred: " ++ e.message]
  | .ok text =>
      match Text.wrap text p.width with
      | .error e => .error (.width e)
      | .ok lines => .ok lines

/-- The lines of the descriptions of an entity. -/
def Player.view (p : Player) (e : Entity) : Except ViewError (List String) := do
  let short ← p.read e.shortDescription
  let long ← p.read e.longDescription
  return short ++ long

/-- What is seen of the entity with an id. -/
def Player.viewOf (p : Player) (id : EntityId) : Except ViewError (List String) :=
  match p.world.entity? id with
  | none => .error .nowhere
  | some e => p.view e

/-- What a player sees around. -/
def Player.look (p : Player) : Except ViewError (List String) := p.viewOf p.location

/-- What a player sees of the thing with a dotted name. -/
def Player.examine (p : Player) (dotted : String) : Except ViewError (List String) :=
  match p.world.lookupDotted dotted with
  | none => .ok ["Es gibt nichts, was " ++ dotted ++ " heißt."]
  | some id => p.viewOf id

/-! ## Tests -/

example : (Player.atStart Example.world).examine "brass.lamp"
    = .ok ["Es gibt nichts, was brass.lamp heißt."] := by rfl

end TextAdventure
