import GpuAudit.Main
import GpuAudit.Proofs.Freeing
import GpuAudit.Proofs.Retirement
import GpuAudit.Proofs.Moves
import GpuAudit.Proofs.Fences
import GpuAudit.Proofs.Coherence
import GpuAudit.Proofs.Returns
import GpuAudit.Proofs.Passing
import GpuAudit.Proofs.Waits
import GpuAudit.Proofs.Queries
import GpuAudit.Proofs.Histories
import GpuAudit.Proofs.InTurn
import GpuAudit.Proofs.SingleUse
import GpuAudit.Proofs.Forwarding
import GpuAudit.Proofs.Fitting
import GpuAudit.Proofs.Routing
import GpuAudit.Proofs.Independence
import GpuAudit.Proofs.Interruption
import GpuAudit.Proofs.Halting
import GpuAudit.Proofs.Lifecycle
import GpuAudit.Proofs.ExitStatus
import GpuAudit.Proofs.Admission
import GpuAudit.Proofs.Decoding
import GpuAudit.Proofs.Swapchains
import GpuAudit.Proofs.Allocation
import GpuAudit.Proofs.Pools
import GpuAudit.Proofs.BindingRules
import GpuAudit.Proofs.Commands
import GpuAudit.Proofs.Mapping
import GpuAudit.Proofs.Leaks
import GpuAudit.Proofs.Quiescence
import GpuAudit.Proofs.FiniteMaps
