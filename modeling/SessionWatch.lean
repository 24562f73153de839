import SessionWatch.Dispatch.Reentrant
import SessionWatch.Main
import SessionWatch.Supervisor.Schedule
import SessionWatch.Proofs.Entries
import SessionWatch.Proofs.FlatObject
import SessionWatch.Proofs.Effect
import SessionWatch.Proofs.Course
import SessionWatch.Proofs.Facts
import SessionWatch.Proofs.Provenance
import SessionWatch.Proofs.FanOut
import SessionWatch.Proofs.Looks
import SessionWatch.Proofs.Fence
import SessionWatch.Proofs.Delivery
import SessionWatch.Proofs.Mirror
import SessionWatch.Proofs.Deeds
import SessionWatch.Proofs.Relay
import SessionWatch.Proofs.Provisioning
import SessionWatch.Proofs.Stores
import SessionWatch.Proofs.Accesses
import SessionWatch.Proofs.Keeping
import SessionWatch.Proofs.Strands
import SessionWatch.Proofs.Interleaving
import SessionWatch.Proofs.Likeness
import SessionWatch.Proofs.Separation
import SessionWatch.Proofs.Supervision
import SessionWatch.Proofs.Holdings
import SessionWatch.Proofs.Chronology
import SessionWatch.Proofs.Replicas
import SessionWatch.Proofs.Server
import SessionWatch.Proofs.StandIn
import SessionWatch.Proofs.Rounds
import SessionWatch.Proofs.Keyspace
import SessionWatch.Proofs.Redelivery
import SessionWatch.Proofs.Recollection
import SessionWatch.Proofs.Submission
import SessionWatch.Proofs.PoolLabels
import SessionWatch.Proofs.PodUpdates
import SessionWatch.Proofs.Relisting
import SessionWatch.Proofs.Indexing
import SessionWatch.Proofs.Readiness
import SessionWatch.Proofs.NodeBatches
import SessionWatch.Proofs.Numbering
import SessionWatch.Proofs.Lifetimes
import SessionWatch.Proofs.Deadlines
import SessionWatch.Proofs.TaskTexts
import SessionWatch.Proofs.Identities
import SessionWatch.Proofs.Staging
import SessionWatch.Proofs.Resolution
import SessionWatch.Proofs.Startup
