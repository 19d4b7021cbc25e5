import PacingFabric.Model.Id

/-!
# Instants, deadlines and rate grants

The clock is injected, so an instant is whatever a reading returned. A rate grant is a
snapshot of upstream authority: the coordinator reads it and never writes one.
-/

namespace Pacing

/-- Nanosecond instant of the injected clock. -/
structure Instant where
  ns : UInt64 := 0
  deriving DecidableEq, Repr

/-- Bounded deadline; an unset deadline never expires. -/
structure Deadline where
  instant : Instant := {}
  set : Bool := false
  deriving DecidableEq, Repr

namespace Deadline

def at_ (instant : Instant) : Deadline := ⟨instant, true⟩

def expiredAt (d : Deadline) (now : Instant) : Bool := d.set && decide (now.ns ≥ d.instant.ns)

/-- The nanoseconds a request or a record stores for the deadline. -/
def nsOrZero (d : Deadline) : UInt64 := if d.set then d.instant.ns else 0

end Deadline

/-- A snapshot of upstream rate authority for one resource. -/
structure RateGrant where
  ref : GrantRef := {}
  resource : ResourceId := {}
  ceilingBps : UInt64 := 0
  floorBps : UInt64 := 0
  revision : UInt64 := 0
  observedAt : Instant := {}
  validUntil : Deadline := {}
  provenance : ProvenanceId := {}
  authoritative : Bool := false
  deriving DecidableEq, Repr

namespace RateGrant

def usable (g : RateGrant) : Bool :=
  g.authoritative && g.ref.known && g.resource.valid && g.ceilingBps != 0

def expiredAt (g : RateGrant) (now : Instant) : Bool := g.validUntil.expiredAt now

def digest (g : RateGrant) : UInt64 :=
  ({} : Digest64)
    |>.mixU64 g.ref.id.value
    |>.mixU64 g.ref.generation.value
    |>.mixU64 g.resource.value
    |>.mixU64 g.ceilingBps
    |>.mixU64 g.floorBps
    |>.mixU64 g.revision
    |>.mixU64 g.observedAt.ns
    |>.mixBool g.validUntil.set
    |>.mixU64 g.validUntil.nsOrZero
    |>.mixU64 g.provenance.value
    |>.mixBool g.authoritative
    |>.value

end RateGrant

end Pacing
