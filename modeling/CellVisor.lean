import CellVisor.BareMetal
import CellVisor.Hypervisor
import CellVisor.Lock
import CellVisor.Log.Console
import CellVisor.Proofs.Barrier.Rounds
import CellVisor.Proofs.Boot.Outcome
import CellVisor.Proofs.Cell.Failures
import CellVisor.Proofs.Config.Acceptance
import CellVisor.Proofs.Cpu.Features
import CellVisor.Proofs.Exclusion.Bystander
import CellVisor.Proofs.Frozen
import CellVisor.Proofs.Image.Admission
import CellVisor.Proofs.Image.Blocks
import CellVisor.Proofs.Iommu.Cutoff
import CellVisor.Proofs.Iommu.Enforcement
import CellVisor.Proofs.Iommu.Grouping
import CellVisor.Proofs.Iommu.Members
import CellVisor.Proofs.Iommu.Ownership
import CellVisor.Proofs.Iommu.Reassignment
import CellVisor.Proofs.Iommu.Simulated
import CellVisor.Proofs.Mailbox.Handshake
import CellVisor.Proofs.Mailbox.Lockstep
import CellVisor.Proofs.Memory.FirstFit
import CellVisor.Proofs.Memory.Overlap
import CellVisor.Proofs.Memory.Ownership
import CellVisor.Proofs.Noninterference.Runs
import CellVisor.Proofs.Overflow
import CellVisor.Proofs.Pci.Encoding
import CellVisor.Proofs.RoundTrip
import CellVisor.Proofs.Switch.Forever
import CellVisor.Sim.Machine
