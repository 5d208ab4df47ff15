import Seam.Journal
import Seam.Mesh.Normal
import Seam.Mesh.Subset
import Seam.Network
import Seam.Proofs.Assembly
import Seam.Proofs.Discovery
import Seam.Proofs.Edges
import Seam.Proofs.Group.Aftermath
import Seam.Proofs.Group.Agreement
import Seam.Proofs.Group.Arrangement
import Seam.Proofs.Group.Collectives
import Seam.Proofs.Group.CopyRounds
import Seam.Proofs.Group.Delivery
import Seam.Proofs.Group.Fidelity
import Seam.Proofs.Group.Gathering
import Seam.Proofs.Group.Isolation
import Seam.Proofs.Group.Members
import Seam.Proofs.Group.Orderly
import Seam.Proofs.Group.Protocol
import Seam.Proofs.Group.Reconciliation
import Seam.Proofs.Group.Reduction
import Seam.Proofs.Group.Renumbering
import Seam.Proofs.Group.Scripts
import Seam.Proofs.Group.Selection
import Seam.Proofs.Group.SerialEquivalence
import Seam.Proofs.Group.Shipping
import Seam.Proofs.Merging
import Seam.Proofs.Mesh.Canonical
import Seam.Proofs.Mesh.Chains
import Seam.Proofs.Mesh.Compaction
import Seam.Proofs.Mesh.Cutting
import Seam.Proofs.Mesh.Duplicates
import Seam.Proofs.Mesh.Keys
import Seam.Proofs.Mesh.Layout
import Seam.Proofs.Mesh.Plans
import Seam.Proofs.Mesh.Refusal
import Seam.Proofs.Mesh.Rewriting
import Seam.Proofs.Mesh.Soundness
import Seam.Proofs.Network.Answers
import Seam.Proofs.Network.Lockstep
import Seam.Proofs.Network.Schedules
import Seam.Proofs.Ownership
import Seam.Proofs.Ragged
import Seam.Proofs.RecordOrder
import Seam.Proofs.Refusal
import Seam.Proofs.Results
import Seam.Proofs.Session
import Seam.Proofs.Store
import Seam.Proofs.Tidying
import Seam.Proofs.Wire.RoundTrip
import Seam.Settings.Reader
import Seam.Proofs.Mesh.Stages
import Seam.Proofs.Mesh.Strands
import Seam.Proofs.EdgeSet.Order
import Seam.Proofs.Mesh.Conforming
import Seam.Proofs.EdgeSet.Numbers
import Seam.Proofs.EdgeSet.Touching
import Seam.Proofs.Mesh.Collapse
import Seam.Proofs.EdgeSet.Collapse
import Seam.Proofs.Mesh.Leading
import Seam.Proofs.Mesh.Interchange
import Seam.Proofs.Wire.Grammar
import Seam.Proofs.Wire.FaceMessages
import Seam.Proofs.Neutrality
import Seam.Proofs.Mesh.Recutting
import Seam.Proofs.Mesh.Tolerances
import Seam.Proofs.Group.Totals
import Seam.Proofs.EdgeSet.Acceptance
import Seam.Proofs.Insertions
import Seam.Proofs.Intake
