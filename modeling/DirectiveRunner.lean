import DirectiveRunner.Machine.Machine
import DirectiveRunner.Main
import DirectiveRunner.Proofs.Acceptance
import DirectiveRunner.Proofs.ArgumentOrder
import DirectiveRunner.Proofs.Arithmetic
import DirectiveRunner.Proofs.Binding
import DirectiveRunner.Proofs.Closing
import DirectiveRunner.Proofs.Context
import DirectiveRunner.Proofs.Conversion
import DirectiveRunner.Proofs.CutOff
import DirectiveRunner.Proofs.DryRun
import DirectiveRunner.Proofs.Effects
import DirectiveRunner.Proofs.Entries
import DirectiveRunner.Proofs.Failure
import DirectiveRunner.Proofs.FileSize
import DirectiveRunner.Proofs.FileTypes
import DirectiveRunner.Proofs.Grouping
import DirectiveRunner.Proofs.Halts
import DirectiveRunner.Proofs.Handles
import DirectiveRunner.Proofs.LastSeen
import DirectiveRunner.Proofs.Launch
import DirectiveRunner.Proofs.Negation
import DirectiveRunner.Proofs.Persistence
import DirectiveRunner.Proofs.Print
import DirectiveRunner.Proofs.Programs
import DirectiveRunner.Proofs.Readback
import DirectiveRunner.Proofs.Reference
import DirectiveRunner.Proofs.Removal
import DirectiveRunner.Proofs.Rendering
import DirectiveRunner.Proofs.Resolution
import DirectiveRunner.Proofs.Rounds
import DirectiveRunner.Proofs.RuleFile
import DirectiveRunner.Proofs.Supplied
import DirectiveRunner.Proofs.Template
import DirectiveRunner.Proofs.View
import DirectiveRunner.Proofs.Wildcard
