import HybridGC.Client.Busy
import HybridGC.Collector.Bench
import HybridGC.Program
import HybridGC.Proofs.Exchange
import HybridGC.Proofs.Table
import HybridGC.Proofs.Avalanche
import HybridGC.Proofs.Cycle
import HybridGC.Proofs.TrialDeletion
import HybridGC.Proofs.Reachability
import HybridGC.Proofs.Heap
import HybridGC.Proofs.Collector
import HybridGC.Proofs.Partition
import HybridGC.Proofs.Gc
import HybridGC.Proofs.Machine
import HybridGC.Proofs.History
import HybridGC.Proofs.Pass
import HybridGC.Proofs.Counts
import HybridGC.Proofs.Discipline
import HybridGC.Proofs.Host
import HybridGC.Proofs.World
import HybridGC.Proofs.Lifecycle
import HybridGC.Proofs.Teardown
import HybridGC.Proofs.Conservation
import HybridGC.Proofs.Reclamation
import HybridGC.Proofs.TableMap
import HybridGC.Proofs.Roots
import HybridGC.Proofs.Ledger
import HybridGC.Proofs.Lockstep
import HybridGC.Proofs.Agreement
import HybridGC.Proofs.Layout
import HybridGC.Proofs.Exclusivity
import HybridGC.Proofs.Growth
import HybridGC.Proofs.Rejection
import HybridGC.Proofs.Stops
import HybridGC.Proofs.Exhaustion
import HybridGC.Proofs.Atomicity
import HybridGC.Proofs.Dying
import HybridGC.Proofs.Slots
import HybridGC.Proofs.IterationOrder
import HybridGC.Proofs.DestructorOrder
import HybridGC.Proofs.TableGrowth
import HybridGC.Proofs.Registration
import HybridGC.Proofs.SharedBags
