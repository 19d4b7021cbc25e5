import PacingFabric.Model.Status
import PacingFabric.Model.Checked
import Mathlib.Tactic.SplitIfs

/-!
# Identities, generations, epochs, boots and the authority vector

Zero is never a valid identity and generation zero means unknown. A reference pairs an
identity with a generation, and the authority vector collects the references that
justified one decision. `compareAuthority` is the whole staleness test of the
coordinator.
-/

namespace Pacing

/-- The identity domains. -/
inductive Tag
  | flow | resource | policy | envelope | backend | attempt | grant | path | serviceClass
  | provenance | tenant
  deriving DecidableEq, Repr

/-- An identity of one domain; identities of different domains do not mix. -/
@[ext] structure Id (tag : Tag) where
  value : UInt64 := 0
  deriving DecidableEq, Repr

def Id.valid {tag : Tag} (id : Id tag) : Bool := id.value != 0

abbrev FlowId := Id .flow
abbrev ResourceId := Id .resource
abbrev PolicyId := Id .policy
abbrev EnvelopeId := Id .envelope
abbrev BackendId := Id .backend
abbrev AttemptId := Id .attempt
abbrev ServiceClassId := Id .serviceClass
abbrev ProvenanceId := Id .provenance
abbrev TenantId := Id .tenant

/-- Revision counter of an identity that can be published again. -/
structure Generation where
  value : UInt64 := 0
  deriving DecidableEq, Repr

namespace Generation

def first : Generation := ⟨1⟩

def known (g : Generation) : Bool := g.value != 0

/-- The next generation, saturating at the maximum; the flag reports exhaustion. -/
def next (g : Generation) : Generation × Bool :=
  if g.value == Checked.u64Max then (g, true) else (⟨g.value + 1⟩, false)

end Generation

/-- Coordinator epoch. -/
structure Epoch where
  value : UInt64 := 0
  deriving DecidableEq, Repr

namespace Epoch

def valid (e : Epoch) : Bool := e.value != 0

def advanced (e : Epoch) : Epoch × Bool :=
  if e.value == Checked.u64Max then (e, true) else (⟨e.value + 1⟩, false)

end Epoch

/-- Process incarnation of the coordinator. -/
structure BootId where
  counter : UInt64 := 0
  nonce : UInt64 := 0
  deriving DecidableEq, Repr

def BootId.valid (b : BootId) : Bool := b.counter != 0 && b.nonce != 0

/-- Worker incarnation. -/
structure WorkerBoot where
  incarnation : UInt64 := 0
  nonce : UInt64 := 0
  deriving DecidableEq, Repr

/-- Identity plus generation. -/
structure GenRef (tag : Tag) where
  id : Id tag := {}
  generation : Generation := {}
  deriving DecidableEq, Repr

def GenRef.known {tag : Tag} (ref : GenRef tag) : Bool := ref.id.valid && ref.generation.known

abbrev FlowRef := GenRef .flow
abbrev ResourceRef := GenRef .resource
abbrev PolicyRef := GenRef .policy
abbrev GrantRef := GenRef .grant
abbrev PathRef := GenRef .path
abbrev BackendRef := GenRef .backend
abbrev EnvelopeRef := GenRef .envelope

/-- The exact evidence set that justified an authorization decision. -/
structure AuthorityVector where
  flow : FlowRef := {}
  resource : ResourceRef := {}
  policy : PolicyRef := {}
  rateGrant : GrantRef := {}
  path : PathRef := {}
  epoch : Epoch := {}
  coordinatorBoot : BootId := {}
  deriving DecidableEq, Repr

def AuthorityVector.complete (v : AuthorityVector) : Bool :=
  v.flow.known && v.resource.known && v.policy.known && v.rateGrant.known && v.path.known &&
    v.epoch.valid && v.coordinatorBoot.valid

/-- Why two authority vectors do not match. -/
inductive AuthorityDrift
  | none | flow | resource | policy | rateGrant | path | epoch | coordinatorBoot | incomplete
  deriving DecidableEq, Repr

/-- `to_string(AuthorityDrift)`. -/
def AuthorityDrift.text : AuthorityDrift → Bytes
  | .none => "none"
  | .flow => "flow-generation"
  | .resource => "resource-generation"
  | .policy => "policy-generation"
  | .rateGrant => "rate-grant-generation"
  | .path => "path-generation"
  | .epoch => "coordinator-epoch"
  | .coordinatorBoot => "coordinator-boot"
  | .incomplete => "incomplete-authority"

def compareAuthority (held current : AuthorityVector) : AuthorityDrift :=
  if !held.complete then .incomplete
  else if held.flow ≠ current.flow then .flow
  else if held.resource ≠ current.resource then .resource
  else if held.policy ≠ current.policy then .policy
  else if held.rateGrant ≠ current.rateGrant then .rateGrant
  else if held.path ≠ current.path then .path
  else if held.epoch ≠ current.epoch then .epoch
  else if held.coordinatorBoot ≠ current.coordinatorBoot then .coordinatorBoot
  else .none

/-- No drift is reported exactly when the held vector is complete and equal to the current
one. -/
theorem compareAuthority_eq_none_iff {held current : AuthorityVector} :
    compareAuthority held current = .none ↔ held.complete = true ∧ held = current := by
  constructor
  · intro h
    unfold compareAuthority at h
    split_ifs at h with hc h1 h2 h3 h4 h5 h6 h7
    refine ⟨by simpa using hc, ?_⟩
    obtain ⟨f, r, p, g, t, e, b⟩ := held
    obtain ⟨f', r', p', g', t', e', b'⟩ := current
    simp only [ne_eq, not_not] at h1 h2 h3 h4 h5 h6 h7
    simp only [h1, h2, h3, h4, h5, h6, h7]
  · rintro ⟨hc, rfl⟩
    simp [compareAuthority, hc]

/-- `drift_code`: the status code that reports a drift. -/
def AuthorityDrift.code : AuthorityDrift → ErrorCode
  | .none => .ok
  | .flow => .staleGeneration
  | .resource => .staleResource
  | .policy => .stalePolicy
  | .rateGrant => .staleRateGrant
  | .path => .stalePath
  | .epoch => .staleEpoch
  | .coordinatorBoot => .staleBoot
  | .incomplete => .unknownAuthority

end Pacing
