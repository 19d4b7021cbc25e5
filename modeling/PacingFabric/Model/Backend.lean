import PacingFabric.Model.Rate
import PacingFabric.Model.Id

/-!
# The pacing backend contract

A backend is the only thing that turns intent into an effect. The coordinator holds it by
a shared pointer, so two registrations may name one object and one identity may be held by
different objects over time.
-/

namespace Pacing

/-- The object a `std::shared_ptr<IPacingBackend>` points to. -/
structure BackendPtr where
  object : Nat := 0
  deriving DecidableEq, Repr

inductive BackendNature
  | real | synthetic
  deriving DecidableEq, Repr

def BackendNature.toByte : BackendNature → UInt8
  | .real => 0
  | .synthetic => 1

structure BackendDescriptor where
  ref : BackendRef := {}
  name : Bytes := []
  nature : BackendNature := .synthetic
  supportsReadback : Bool := false
  maxRateBps : UInt64 := 0
  maxBurstBytes : UInt64 := 0
  capabilityFlags : UInt64 := 0
  deriving DecidableEq, Repr

def BackendDescriptor.usable (d : BackendDescriptor) : Bool := d.ref.known && !d.name.isEmpty

structure ApplyRequest where
  attempt : AttemptId := {}
  envelope : EnvelopeRef := {}
  flow : FlowId := {}
  authority : AuthorityVector := {}
  cadence : Cadence := {}
  worker : WorkerBoot := {}
  issuedAtNs : UInt64 := 0
  deadlineNs : UInt64 := 0
  deriving DecidableEq, Repr

structure ApplyAck where
  attempt : AttemptId := {}
  accepted : Bool := false
  backendSeq : UInt64 := 0
  detail : Bytes := []
  deriving DecidableEq, Repr

/-- Classification of the evidence behind a claimed effect. -/
inductive EvidenceKind
  | none | backendReadback | syntheticReadback | injected
  deriving DecidableEq, Repr

def EvidenceKind.toByte : EvidenceKind → UInt8
  | .none => 0
  | .backendReadback => 1
  | .syntheticReadback => 2
  | .injected => 3

structure ReadbackEvidence where
  present : Bool := false
  kind : EvidenceKind := .none
  backend : BackendRef := {}
  attempt : AttemptId := {}
  observedRateBps : UInt64 := 0
  observedQuantumBytes : UInt64 := 0
  observedBurstBytes : UInt64 := 0
  observedIntervalNs : UInt64 := 0
  backendSeq : UInt64 := 0
  observedAtNs : UInt64 := 0
  integrityOk : Bool := false
  digest : UInt64 := 0
  deriving DecidableEq, Repr

/-- `evidence_digest`. -/
def ReadbackEvidence.computedDigest (e : ReadbackEvidence) : UInt64 :=
  ({} : Digest64)
    |>.mixU64 e.backend.id.value
    |>.mixU64 e.backend.generation.value
    |>.mixU64 e.attempt.value
    |>.mixU64 e.observedRateBps
    |>.mixU64 e.observedQuantumBytes
    |>.mixU64 e.observedBurstBytes
    |>.mixU64 e.observedIntervalNs
    |>.mixU64 e.backendSeq
    |>.mixU64 e.observedAtNs
    |>.mixBool e.integrityOk
    |>.mixU64 e.kind.toByte.toUInt64
    |>.value

end Pacing
