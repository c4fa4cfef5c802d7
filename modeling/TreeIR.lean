import TreeIR.Config.File
import TreeIR.Order
import TreeIR.Proofs.Atomicity
import TreeIR.Proofs.Minting
import TreeIR.Proofs.Preorder
import TreeIR.Proofs.AppendOnly
import TreeIR.Proofs.Reachability
import TreeIR.Proofs.Termination
import TreeIR.Proofs.Substitution
import TreeIR.Proofs.BottomUp
import TreeIR.Proofs.Registry
import TreeIR.Proofs.Labels
import TreeIR.Proofs.WellFormed
import TreeIR.Proofs.ChunkSize
import TreeIR.Proofs.Interning
import TreeIR.Proofs.FunctionStore
import TreeIR.Proofs.Stability
import TreeIR.Proofs.Footprint
import TreeIR.Proofs.Locals
import TreeIR.Proofs.Exports
import TreeIR.Proofs.Commutation
import TreeIR.Proofs.Room
import TreeIR.Proofs.ConfigText
import TreeIR.Proofs.ChildSlots
import TreeIR.Proofs.Clashes
import TreeIR.Proofs.Building
import TreeIR.Proofs.Layout
import TreeIR.Proofs.SignatureText
import TreeIR.Proofs.LocalLookup
import TreeIR.Proofs.Copies
import TreeIR.Proofs.DecimalText
import TreeIR.Proofs.LiteralKeys
import TreeIR.Proofs.Rounding
import TreeIR.Proofs.TypedResolution
import TreeIR.Proofs.FloatText
import TreeIR.Proofs.LiteralText
import TreeIR.Proofs.TomlTables
import TreeIR.Proofs.TomlRange
import TreeIR.Proofs.ConfigKeys
import TreeIR.Proofs.ErrorText
