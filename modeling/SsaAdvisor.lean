import SsaAdvisor.Advisor
import SsaAdvisor.Func.Builder
import SsaAdvisor.Ty.Union
import SsaAdvisor.Proofs.ControlFlow
import SsaAdvisor.Proofs.Reader
import SsaAdvisor.Proofs.ReleasePoint
import SsaAdvisor.Proofs.Sweep
import SsaAdvisor.Proofs.Run
import SsaAdvisor.Proofs.Ancestor
import SsaAdvisor.Proofs.Shape
import SsaAdvisor.Proofs.Overlap
import SsaAdvisor.Proofs.Traversal
import SsaAdvisor.Proofs.Dispatch
import SsaAdvisor.Proofs.Capture
import SsaAdvisor.Proofs.DeadArm
import SsaAdvisor.Proofs.Repetition
import SsaAdvisor.Proofs.Knowledge
import SsaAdvisor.Proofs.FindingOrder
import SsaAdvisor.Proofs.WellFormed
import SsaAdvisor.Proofs.Selection
import SsaAdvisor.Proofs.Threshold
import SsaAdvisor.Proofs.AllowList
import SsaAdvisor.Proofs.Registration
import SsaAdvisor.Proofs.Growth
import SsaAdvisor.Proofs.Meaning
import SsaAdvisor.Proofs.Parts
import SsaAdvisor.Proofs.MayShare
import SsaAdvisor.Proofs.Widening
import SsaAdvisor.Proofs.Subtyping
import SsaAdvisor.Proofs.Distribution
import SsaAdvisor.Proofs.NormalForm
import SsaAdvisor.Proofs.Instantiation
import SsaAdvisor.Proofs.Interruption
import SsaAdvisor.Proofs.FirstDefect
import SsaAdvisor.Proofs.AllocationSize
import SsaAdvisor.Proofs.ExactFolding
import SsaAdvisor.Proofs.Finiteness
import SsaAdvisor.Proofs.DeadTotal
import SsaAdvisor.Proofs.Wording
import SsaAdvisor.Proofs.Agreement
import SsaAdvisor.Proofs.FindingAccount
import SsaAdvisor.Proofs.ExactScore
import SsaAdvisor.Proofs.Reachability
import SsaAdvisor.Proofs.WordAccess
import SsaAdvisor.Proofs.Handle
