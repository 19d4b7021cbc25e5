import PacingFabric.Model.Checked

/-!
# Bounded resource limits

The bounds every externally influenced size is checked against, with the defaults of the
source, and the coherence test `initialize` runs on them.
-/

namespace Pacing

def nanosPerSecond : UInt64 := 1000000000

structure Limits where
  maxRateBps : UInt64 := 400000000000
  maxQuantumBytes : UInt64 := 16777216
  maxBurstBytes : UInt64 := 1073741824
  maxBurstPackets : UInt64 := 16777216
  minWindowNs : UInt64 := 1000
  maxWindowNs : UInt64 := 10000000000
  maxIntervalNs : UInt64 := 10000000000
  maxBurstHorizonNs : UInt64 := 100000000
  maxEnvelopeLifetimeNs : UInt64 := 5000000000
  maxServiceClassExceptions : UInt32 := 64
  maxPolicies : UInt32 := 4096
  maxFlows : UInt32 := 1048576
  maxEnvelopes : UInt32 := 1048576
  maxAttempts : UInt32 := 2097152
  maxBackends : UInt32 := 64
  maxResources : UInt32 := 65536
  maxJournalRecords : UInt32 := 1048576
  maxJournalBytes : UInt64 := 268435456
  maxDurableRecordBytes : UInt64 := 1048576
  maxCompactionBatch : UInt32 := 65536
  maxFrameBytes : UInt32 := 1048576
  maxFramePayloadBytes : UInt32 := 1048512
  maxConnections : UInt32 := 256
  maxExplanationBytes : UInt32 := 8192
  maxNameBytes : UInt32 := 128
  maxRetries : UInt32 := 4
  maxWorkers : UInt32 := 256
  deriving DecidableEq, Repr

/-- `limits_are_coherent`. -/
def Limits.coherent (l : Limits) : Bool :=
  l.maxRateBps != 0 && l.maxQuantumBytes != 0 && l.maxBurstBytes != 0 &&
  l.maxBurstPackets != 0 && l.minWindowNs != 0 && decide (l.minWindowNs ≤ l.maxWindowNs) &&
  l.maxIntervalNs != 0 && l.maxBurstHorizonNs != 0 && l.maxEnvelopeLifetimeNs != 0 &&
  l.maxServiceClassExceptions != 0 && l.maxPolicies != 0 && l.maxFlows != 0 &&
  l.maxEnvelopes != 0 && l.maxAttempts != 0 && l.maxBackends != 0 && l.maxResources != 0 &&
  l.maxJournalRecords != 0 && l.maxJournalBytes != 0 && l.maxDurableRecordBytes != 0 &&
  decide (l.maxDurableRecordBytes ≤ l.maxJournalBytes) && l.maxCompactionBatch != 0 &&
  l.maxFrameBytes != 0 && l.maxFramePayloadBytes != 0 &&
  decide (l.maxFramePayloadBytes < l.maxFrameBytes) && l.maxConnections != 0 &&
  l.maxExplanationBytes != 0 && l.maxNameBytes != 0 && l.maxWorkers != 0

end Pacing
