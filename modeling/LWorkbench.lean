import LWorkbench.Editor.Server
import LWorkbench.Main
import LWorkbench.Proofs.Evaluator
import LWorkbench.Proofs.Machine.Simulation
import LWorkbench.Proofs.Parser.Reading
import LWorkbench.Proofs.Parser.Expressions
import LWorkbench.Proofs.Parser.Statements
import LWorkbench.Proofs.Numbering
import LWorkbench.Proofs.Machine.Known
import LWorkbench.Proofs.Machine.Stacks
import LWorkbench.Proofs.Machine.Steps
import LWorkbench.Proofs.Places
import LWorkbench.Proofs.Analysis.Rules
import LWorkbench.Proofs.Analysis.Outcome
import LWorkbench.Proofs.Analysis.Walk
import LWorkbench.Proofs.Analysis.Diagnostics
import LWorkbench.Proofs.Analysis.Course
import LWorkbench.Proofs.Analysis.Lexical
import LWorkbench.Proofs.Analysis.Pending
import LWorkbench.Proofs.Analysis.Tracking
import LWorkbench.Proofs.Layout
import LWorkbench.Proofs.Values
import LWorkbench.Proofs.Analysis.Notes
import LWorkbench.Proofs.Analysis.Definitions
import LWorkbench.Proofs.Machine.History
import LWorkbench.Proofs.Machine.Trails
import LWorkbench.Proofs.Machine.Charts
import LWorkbench.Proofs.Machine.Slots
import LWorkbench.Proofs.Machine.Runs
import LWorkbench.Proofs.Machine.Chains
import LWorkbench.Proofs.Machine.Jumps
import LWorkbench.Proofs.Machine.Navigation
import LWorkbench.Proofs.Locating
import LWorkbench.Proofs.Machine.Rounds
import LWorkbench.Proofs.Editor.Carets
import LWorkbench.Proofs.Editor.Occurrences
import LWorkbench.Proofs.Editor.Labels
import LWorkbench.Proofs.Editor.Results
import LWorkbench.Proofs.Editor.CurrentText
import LWorkbench.Proofs.Debugger.Events
import LWorkbench.Proofs.Editor.Publishing
import LWorkbench.Proofs.Editor.ParseFailures
import LWorkbench.Proofs.Debugger.FailedLaunches
import LWorkbench.Proofs.Debugger.Looking
import LWorkbench.Proofs.Debugger.References
import LWorkbench.Proofs.Debugger.Scheduling
import LWorkbench.Proofs.Machine.Faults
import LWorkbench.Proofs.Machine.CallSites
import LWorkbench.Proofs.Analysis.Repeating
import LWorkbench.Proofs.Machine.Holding
import LWorkbench.Proofs.Machine.Reloading
import LWorkbench.Proofs.Framing.Headers
import LWorkbench.Proofs.Framing.Streams
import LWorkbench.Proofs.Framing.Cuts
import LWorkbench.Proofs.Editor.LineEnds
import LWorkbench.Proofs.Editor.Undoing
import LWorkbench.Proofs.Editor.Positions
import LWorkbench.Proofs.Relocation.Respacing
import LWorkbench.Proofs.Tokens.Literals
import LWorkbench.Proofs.Parser.Prefixes
import LWorkbench.Proofs.Environments.Histories
import LWorkbench.Proofs.Analysis.Contexts
import LWorkbench.Proofs.Parser.Progress
