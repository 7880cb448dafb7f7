import TextAdventure.World.Basic

/-!
# The example world

A small world to play in and to try templates on: two rock rooms joined by a
closed metal door that is not locked.  Players start in the small rock room.
-/

namespace TextAdventure.Example

/-- The id of the small rock room. -/
def roomId : EntityId := .unique 1

/-- The id of the tunnel. -/
def tunnelId : EntityId := .unique 2

/-- The id of the metal door. -/
def doorId : EntityId := .unique 3

/-- The metal door between the room and the tunnel. -/
def door : Entity where
  id := doorId
  name := ["rusty", "metal", "door"]
  shortDescription := "Metalltür"
  longDescription := "Eine verbeulte, rostige Tür aus Metall." ++
    "#(if (closed rusty.metal.door) \" Die Tür ist geschlossen.\" \"\")"
  attributes := [.doorlike roomId tunnelId, .closable true, .lockable false]
  nickname := some "metal_door_1"
  name_ne_nil := by decide
  word_ne_empty := by decide
  point_not_mem := by decide

/-- The small rock room, where players start. -/
def room : Entity where
  id := roomId
  name := ["small", "rock", "room"]
  shortDescription := "Ein kleiner Raum mit Wänden aus rohem Fels"
  longDescription :=
    "Der Raum hat eine Größe von etwa sechs Quadratmetern. Der Boden, " ++
    "die Decke und die Wände bestehen aus roh behauenem Fels. Der Boden " ++
    "ist mit Schutt bedeckt.  In einer der Wände befindet sich eine " ++
    "zugemauerte Türöffnung, gegenüber ist eine " ++
    "#(if (closed rusty.metal.door) \"geschlossene\" \"geöffnete\")" ++
    "#(if (locked rusty.metal.door) \" verriegelte\" \"\") " ++
    "Metalltür eingelassen."
  attributes := [.roomlike [doorId]]
  nickname := none
  name_ne_nil := by decide
  word_ne_empty := by decide
  point_not_mem := by decide

/-- The tunnel behind the door. -/
def tunnel : Entity where
  id := tunnelId
  name := ["cramped", "rock", "tunnel"]
  shortDescription := "Ein niedriger Felstunnel"
  longDescription :=
    "Ein schmaler, niedriger Tunnel, etwa 1,70 Meter hoch und einen " ++
    "Meter breit. Der Tunnel führt leicht bergab und hat an beiden " ++
    "Enden Metalltüren"
  attributes := [.roomlike [doorId]]
  nickname := none
  name_ne_nil := by decide
  word_ne_empty := by decide
  point_not_mem := by decide

/-- The example world. -/
def world : World where
  name := "Example World"
  entities := [door, room, tunnel]
  start := roomId
  ids_nodup := by decide
  start_mem := by decide

end TextAdventure.Example
