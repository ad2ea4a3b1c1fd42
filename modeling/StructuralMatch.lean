import StructuralMatch.Engine.Basic
import StructuralMatch.Exchange.Plan
import StructuralMatch.Proofs.BaseChain
import StructuralMatch.Proofs.BoundNames
import StructuralMatch.Proofs.Conservation
import StructuralMatch.Proofs.DeadClauses
import StructuralMatch.Proofs.DepthLimit
import StructuralMatch.Proofs.EqualityLaws
import StructuralMatch.Proofs.FirstMatch
import StructuralMatch.Proofs.Gating
import StructuralMatch.Proofs.GuardCalls
import StructuralMatch.Proofs.History
import StructuralMatch.Proofs.Inheritance
import StructuralMatch.Proofs.Interning
import StructuralMatch.Proofs.KeyBudget
import StructuralMatch.Proofs.KeySets
import StructuralMatch.Proofs.LaneRefinement
import StructuralMatch.Proofs.Ledger
import StructuralMatch.Proofs.Leftovers
import StructuralMatch.Proofs.LiteralKeys
import StructuralMatch.Proofs.ObjectFree
import StructuralMatch.Proofs.PlainPatterns
import StructuralMatch.Proofs.PositionalForm
import StructuralMatch.Proofs.Positions
import StructuralMatch.Proofs.SharedKeys
import StructuralMatch.Proofs.SlotCalls
import StructuralMatch.Proofs.WellFormedPlan
import StructuralMatch.Value.Text
