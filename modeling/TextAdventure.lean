import TextAdventure.Main
import TextAdventure.Proofs.Template.Writing
import TextAdventure.Proofs.Template.Faults
import TextAdventure.Proofs.Template.Joining
import TextAdventure.Proofs.Template.Safety
import TextAdventure.Proofs.Template.Unreached
import TextAdventure.Proofs.Command.Meaning
import TextAdventure.Proofs.Text.Wrapping
import TextAdventure.Proofs.Template.Tokens
import TextAdventure.Proofs.Template.TwoRuns
import TextAdventure.Proofs.World.Entities
import TextAdventure.Proofs.Template.Answers
import TextAdventure.Proofs.Template.Growth
import TextAdventure.Proofs.Template.Reference
import TextAdventure.Proofs.Game.Sessions
import TextAdventure.Proofs.Command.Wording
import TextAdventure.Proofs.Template.Contexts
import TextAdventure.Proofs.Template.Regrouping
import TextAdventure.Proofs.Game.Transcripts
import TextAdventure.Proofs.World.Building
import TextAdventure.Proofs.Game.Naming
import TextAdventure.Proofs.Text.Greedy
import TextAdventure.Proofs.Command.Sentences
import TextAdventure.Proofs.Template.Outlines
import TextAdventure.Proofs.Template.Depth
import TextAdventure.Proofs.Template.Flattening
import TextAdventure.Proofs.Template.Descent
import TextAdventure.Proofs.Template.Progress
