import AwkNames.Position
import AwkNames.Special
import AwkNames.NameMap
import AwkNames.Text.Unprintable
import AwkNames.Text.Quoted
import AwkNames.Syntax.Node
import AwkNames.Syntax.Ast
import AwkNames.Syntax.Program
import AwkNames.Symbol
import AwkNames.SymbolTable
import AwkNames.Error
import AwkNames.Config
import AwkNames.Resolver
import AwkNames.Builder
import AwkNames.Resolution.Order
import AwkNames.Resolution.Calls
import AwkNames.Resolution.Kinds
import AwkNames.Resolution.Slots
import AwkNames.Resolution.Resolve
import AwkNames.Build.Source
import AwkNames.Build.Step
import AwkNames.Proofs.NameMap
import AwkNames.Proofs.Tables
import AwkNames.Proofs.Inference
import AwkNames.Proofs.Slots
import AwkNames.Proofs.Runs
import AwkNames.Proofs.Invariant
import AwkNames.Proofs.InPlace
import AwkNames.Proofs.Resolution
import AwkNames.Proofs.Numbering
import AwkNames.Proofs.Deferral
import AwkNames.Proofs.CallOrder
import AwkNames.Proofs.SlotErasure
import AwkNames.Proofs.OrderIndependence
import AwkNames.Proofs.CallLog
import AwkNames.Proofs.KnownKinds
import AwkNames.Proofs.Scoping
import AwkNames.Proofs.FirstUse
import AwkNames.Proofs.Footprint
import AwkNames.Proofs.Chains
import AwkNames.Proofs.Coherence
import AwkNames.Proofs.Idempotence
import AwkNames.Proofs.Passes
import AwkNames.Proofs.SlotPhases
import AwkNames.Proofs.Renumbering
import AwkNames.Proofs.Declaration
