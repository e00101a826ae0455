import ScratchBird.Proofs.BtreeUnique
import ScratchBird.Proofs.BtreeBulkTree
import ScratchBird.Proofs.PublishedView
import ScratchBird.Proofs.InventoryPublication
import ScratchBird.Proofs.LocalLockGraph
import ScratchBird.Proofs.Isolation
import ScratchBird.Proofs.HistoricalSnapshot
import ScratchBird.Proofs.BtreePageReads
import ScratchBird.Proofs.HashPageReads
import ScratchBird.Proofs.UniqueReservation
import ScratchBird.Proofs.CheckedModeLatch
import ScratchBird.Proofs.SnapshotBase
import ScratchBird.Proofs.SnapshotPolicy
import ScratchBird.Proofs.LockAnswers
import ScratchBird.Proofs.HeldLatchOrder
import ScratchBird.Proofs.BtreeImport
import ScratchBird.Proofs.BtreePrefix
import ScratchBird.Proofs.PageAllocation
