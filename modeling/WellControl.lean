import WellControl.Catalog.Lemmas
import WellControl.Constants.Scope
import WellControl.Economic.LowPressure
import WellControl.Fault.Message
import WellControl.Session.Changes
import WellControl.Session.Controls
import WellControl.Session.Economics
import WellControl.Session.Passes
import WellControl.Proofs.Group.SequentialCuts
import WellControl.Proofs.Pass.Report
import WellControl.Proofs.Plain
import WellControl.Proofs.Economic.Consistency
import WellControl.Proofs.Economic.Distribution
import WellControl.Proofs.Economic.OwnRates
import WellControl.Proofs.Economic.Mediant
import WellControl.Proofs.Group.Amount
import WellControl.Proofs.Group.CurrentRates
import WellControl.Proofs.Pass.Call
import WellControl.Proofs.Closure.Additions
import WellControl.Proofs.Pass.Failure
import WellControl.Proofs.Pass.History
import WellControl.Proofs.Group.GuideRates
import WellControl.Proofs.Pass.Order
import WellControl.Proofs.Control.Settled
import WellControl.Proofs.Pass.Again
import WellControl.Proofs.Control.Frame
import WellControl.Proofs.Pass.Messages
import WellControl.Proofs.State.Fitting
import WellControl.Proofs.Control.Faults
import WellControl.Proofs.Economic.Faults
import WellControl.Proofs.Division
import WellControl.Proofs.Pass.Faults
import WellControl.Proofs.Phase.Reordering
import WellControl.Proofs.Control.Reordering
import WellControl.Proofs.Economic.Reordering
import WellControl.Proofs.Pass.Reordering
import WellControl.Proofs.Economic.Candidates
import WellControl.Proofs.Economic.Verdicts
import WellControl.Proofs.Economic.Workovers
import WellControl.Proofs.Group.Standing
import WellControl.Proofs.Group.Partition
import WellControl.Proofs.Control.TighterLimit
import WellControl.Proofs.Control.Repeated
import WellControl.Proofs.Voidage
import WellControl.Proofs.Voidage.Inverse
import WellControl.Proofs.Closure.Repetition
import WellControl.Proofs.Economic.Scaling
import WellControl.Proofs.Control.Mixtures
import WellControl.Proofs.Economic.Unsupported
import WellControl.Proofs.Closure.History
import WellControl.Proofs.Economic.ClosureMessages
import WellControl.Proofs.Phase.Correspondence
import WellControl.Proofs.Control.Correspondence
import WellControl.Proofs.Control.Extension
import WellControl.Proofs.Group.Overrides
import WellControl.Proofs.Constants.Nesting
import WellControl.Proofs.Well.Partition
import WellControl.Proofs.Group.Sharers
import WellControl.Proofs.Well.Collection
import WellControl.Proofs.Phase.Arrays
