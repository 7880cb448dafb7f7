import TextAdventure.Proofs.Template.Rendering
import TextAdventure.Proofs.Template.TwoRuns
import TextAdventure.Proofs.World.Alike
import TextAdventure.World.Example

/-!
# What a template can learn of a world

A tree can only ask what the names in it stand for, and whether the entities found so
are closed and locked.  Two worlds that answer these questions alike (`SameAnswers`)
give it the same outcome, whatever else they differ in.  Worlds whose entities look
alike to those who know the names in the tree do answer alike (`SameAnswers.of_looksAlike`).
-/

namespace TextAdventure.Template

/-- The second world answers as the first what a tree with some names in it can ask. -/
structure SameAnswers (tokens : List String) (w w' : World) : Prop where
  /-- Each name stands for the same. -/
  lookup : ∀ token ∈ tokens, w'.lookupDotted token = w.lookupDotted token
  /-- What a name stands for is closed in both worlds or in none. -/
  closed : ∀ token ∈ tokens, ∀ id, w.lookupDotted token = some id → w'.isClosed id = w.isClosed id
  /-- What a name stands for is locked in both worlds or in none. -/
  locked : ∀ token ∈ tokens, ∀ id, w.lookupDotted token = some id → w'.isLocked id = w.isLocked id

/-! ## The same outcomes -/

theorem SameAnswers.mirrors {w w' : World} {n : Node} (h : SameAnswers n.tokens w w') :
    Mirrors (Value.IsWithin fun id => ∃ token ∈ n.tokens, w.lookupDotted token = some id)
      (fun _ => True) (fun _ => False) (evaluate w n) (evaluate w' n) := by
  refine mirrors_evaluate ⟨?_, ?_⟩ fun token htoken => ?_
  · rintro id ⟨token, htoken, hid⟩
    exact h.closed token htoken id hid
  · rintro id ⟨token, htoken, hid⟩
    exact h.locked token htoken id hid
  · refine mirrors_evaluateName (fun _ _ => trivial) (fun _ id hid => ?_) fun hnone => ?_
    · exact ⟨⟨token, htoken, hid⟩, (h.lookup token htoken).trans hid⟩
    · exact .inl ((h.lookup token htoken).trans hnone)

theorem SameAnswers.render_eq {w w' : World} {text : String}
    (h : ∀ n, parse text = .ok n → SameAnswers n.tokens w w') :
    render w' text = render w text := by
  cases hparse : parse text with
  | error e => rw [render_of_parse_error hparse, render_of_parse_error hparse]
  | ok n =>
    rw [render_of_parse hparse, render_of_parse hparse,
      (mirrors_renderNode (h n hparse).mirrors).eq]

/-! ## Entities that look alike -/

theorem SameAnswers.of_looksAlike {tokens : List String} {w w' : World}
    (h : LooksAlike (tokens.map NamePath.ofDotted) w.entities w'.entities) :
    SameAnswers tokens w w' where
  lookup _ htoken := World.lookup_eq_of_facts (h.facts_eq (List.mem_map_of_mem htoken))
  closed _ htoken _ hid :=
    (World.flags_eq_of_facts (h.facts_eq (List.mem_map_of_mem htoken)) hid).1
  locked _ htoken _ hid :=
    (World.flags_eq_of_facts (h.facts_eq (List.mem_map_of_mem htoken)) hid).2

/-- Rendering depends on the world only through what the names in the template stand for, and
through whether that is closed or locked.  So nothing shows of a change of the entities after
which they look alike to those who know these names, or of what the world is called and where
it starts. -/
theorem outcome_of_sameAnswers :
    (∀ (w w' : World) (n : Node), SameAnswers n.tokens w w' → evaluate w' n = evaluate w n) ∧
      (∀ (w w' : World) (text : String),
        (∀ n, parse text = .ok n → SameAnswers n.tokens w w') → render w' text = render w text) ∧
      ∀ (w w' : World) (text : String),
        (∀ n, parse text = .ok n →
          LooksAlike (n.tokens.map NamePath.ofDotted) w.entities w'.entities) →
        render w' text = render w text := by
  refine ⟨fun w w' n h => h.mirrors.eq, fun w w' text => SameAnswers.render_eq, ?_⟩
  intro w w' text h
  exact SameAnswers.render_eq fun n hn => .of_looksAlike (h n hn)

/-- The metal door of the example world, of which nothing is left but that it is closed. -/
def bareDoor : Entity :=
  { Example.door with
    shortDescription := ""
    longDescription := "#("
    attributes := [.closable true, .closable false]
    nickname := none }

/-- A world without the room, in which the door stands behind the tunnel. -/
def cellar : World where
  name := "Cellar"
  entities := [Example.tunnel, bareDoor]
  start := Example.tunnelId
  ids_nodup := by decide
  start_mem := by decide

/-- Whoever asks about the door sees no difference between the example world and the cellar. -/
theorem outcome_of_sameAnswers_cellar :
    let text := "#(if (closed rusty.metal.door) 'zu' 'auf')"
    let n := Node.call (.name "if")
      [.call (.name "closed") [.name "rusty.metal.door"], .quoted "zu", .quoted "auf"]
    parse text = .ok n ∧ SameAnswers n.tokens Example.world cellar ∧
      LooksAlike (n.tokens.map NamePath.ofDotted) Example.world.entities cellar.entities ∧
      evaluate cellar n = .ok (.text "zu") ∧ render cellar text = render Example.world text ∧
      render cellar text = .ok "zu" := by
  intro text n
  obtain ⟨hevaluate, hrender, hchange⟩ := outcome_of_sameAnswers
  have hparse : parse text = .ok n := by
    show parse "#(if (closed rusty.metal.door) 'zu' 'auf')" = .ok (.call (.name "if")
      [.call (.name "closed") [.name "rusty.metal.door"], .quoted "zu", .quoted "auf"])
    cbv
  have hread : ∀ m, parse text = .ok m → m = n := by
    intro m hm
    rw [hparse, Except.ok.injEq] at hm
    exact hm.symm
  have halike : LooksAlike (n.tokens.map NamePath.ofDotted) Example.world.entities
      cellar.entities := by
    have hgone : LooksAlike (n.tokens.map NamePath.ofDotted) [Example.room, Example.tunnel]
        [Example.tunnel] :=
      .removed (by decide) (.redescribed rfl rfl .nil)
    have hbare : LooksAlike (n.tokens.map NamePath.ofDotted) Example.world.entities
        [bareDoor, Example.tunnel] :=
      .redescribed rfl rfl hgone
    have hother : bareDoor.name ≠ Example.tunnel.name := by decide
    exact hbare.trans (.moved [] hother)
  have hanswers : SameAnswers n.tokens Example.world cellar := .of_looksAlike halike
  have hvalue : evaluate Example.world n = .ok (.text "zu") := rfl
  have htext : render Example.world text = .ok "zu" := by
    rw [render_of_parse hparse]
    rfl
  refine ⟨hparse, hanswers, halike, (hevaluate _ _ n hanswers).trans hvalue, ?_, ?_⟩
  · exact hrender Example.world cellar text fun m hm => by rw [hread m hm]; exact hanswers
  · have hsame := hchange Example.world cellar text fun m hm => by rw [hread m hm]; exact halike
    exact hsame.trans htext

end TextAdventure.Template
