import FlowGate.Client
import FlowGate.Gate
import FlowGate.Workflow.Wire
import FlowGate.Proofs.Records
import FlowGate.Proofs.Reimport
import FlowGate.Proofs.InPlace
import FlowGate.Proofs.Following
import FlowGate.Proofs.Blame
import FlowGate.Proofs.Carrying
import FlowGate.Proofs.Unmarking
import FlowGate.Proofs.Lexemes
import FlowGate.Proofs.Sorting
import FlowGate.Proofs.Rearranging
import FlowGate.Proofs.Rereading
import FlowGate.Proofs.Recovery
import FlowGate.Proofs.Descent
import FlowGate.Proofs.Preorder
import FlowGate.Proofs.Endings
import FlowGate.Proofs.Repetition
import FlowGate.Proofs.LargerCap
import FlowGate.Proofs.Matching
import FlowGate.Proofs.Pruning
import FlowGate.Proofs.EmptyGroups
import FlowGate.Proofs.Reassembly
import FlowGate.Proofs.Ordering
import FlowGate.Proofs.Boundary
import FlowGate.Proofs.Identifying
