import PacingFabric.Concurrency.Interleaving
import PacingFabric.Storage.Checksum
import PacingFabric.Storage.Framing
import PacingFabric.Model.Status
import PacingFabric.Model.Checked
import PacingFabric.Model.Id
import PacingFabric.Model.Limits
import PacingFabric.Model.Time
import PacingFabric.Model.Rate
import PacingFabric.Model.Envelope
import PacingFabric.Model.Binding
import PacingFabric.Model.Policy
import PacingFabric.Model.Backend
import PacingFabric.Model.Application
import PacingFabric.Model.Codec
import PacingFabric.Model.Serialize
import PacingFabric.Model.Durable
import PacingFabric.Model.Crc32c
import PacingFabric.Model.DurableFile
import PacingFabric.Model.Fabric
import PacingFabric.Model.Operations
import PacingFabric.Model.Call
import PacingFabric.Model.Recovery
import PacingFabric.Model.System
import PacingFabric.Model.Lifecycle
import PacingFabric.Theorems.Ledger
import PacingFabric.Theorems.Frames
import PacingFabric.Theorems.Refusals
import PacingFabric.Theorems.Starts
import PacingFabric.Theorems.Restart
import PacingFabric.Theorems.Closed
import PacingFabric.Theorems.Epochs
import PacingFabric.Theorems.ClockOrder
import PacingFabric.Theorems.Moves
import PacingFabric.Theorems.Duplicates
import PacingFabric.Theorems.RoundTrip
import PacingFabric.Theorems.Changes
import PacingFabric.Theorems.Readback
import PacingFabric.Theorems.Eviction
import PacingFabric.Theorems.Format
import PacingFabric.Theorems.Compaction
import PacingFabric.Theorems.Checkpoint
import PacingFabric.Theorems.Damage
import PacingFabric.Theorems.JournalDamage
import PacingFabric.Storage.KeyedLog
import PacingFabric.Storage.SlotTable
import PacingFabric.Storage.SlotOrder
import PacingFabric.Model.Transport
import PacingFabric.Model.Explain
import PacingFabric.Model.Control
import PacingFabric.Theorems.Journaling
import PacingFabric.Theorems.Registries
import PacingFabric.Theorems.Messages
import PacingFabric.Theorems.Mirror
import PacingFabric.Theorems.Delimited
import PacingFabric.Theorems.Transport
import PacingFabric.Theorems.Identities
import PacingFabric.Theorems.Currency
import PacingFabric.Theorems.Explaining
import PacingFabric.Theorems.Draining
import PacingFabric.Theorems.Lifecycle
import PacingFabric.Theorems.Room
import PacingFabric.Theorems.EnvelopeIds
import PacingFabric.Theorems.Stamps
import PacingFabric.Theorems.Withdrawals
import PacingFabric.Theorems.Resolutions
import PacingFabric.Theorems.InFlight
import PacingFabric.Theorems.CadenceLimits
import PacingFabric.Theorems.OverRate
import PacingFabric.Theorems.Lapsed
import PacingFabric.Theorems.Handles
import PacingFabric.Theorems.Pending
import PacingFabric.Theorems.Histories
import PacingFabric.Theorems.Accepted
import PacingFabric.Theorems.Flagged
import PacingFabric.Theorems.Atomicity
import PacingFabric.Theorems.Issuance
import PacingFabric.Theorems.Revocations
import PacingFabric.Theorems.Rendered
import PacingFabric.Storage.ShiftRegister
import PacingFabric.Theorems.BitSerial
import PacingFabric.Storage.LastIndex
import PacingFabric.Theorems.Slots
import PacingFabric.Theorems.Indexes
import PacingFabric.Theorems.Latest
import PacingFabric.Model.Protocol
import PacingFabric.Model.Server
import PacingFabric.Concurrency.Refinement
import PacingFabric.Theorems.Authorized
import PacingFabric.Theorems.Protocol
import PacingFabric.Theorems.Pool
import PacingFabric.Theorems.Layers
import PacingFabric.Theorems.Lineage
import PacingFabric.Theorems.Sessions
import PacingFabric.Theorems.Capacity
import PacingFabric.Theorems.Files
