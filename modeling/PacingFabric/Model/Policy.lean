import PacingFabric.Model.Rate
import PacingFabric.Model.Time

/-!
# Pacing policy and the policy store

A policy is authored intent, bound to a generation. The store keeps one slot per policy
identity: removing a policy marks its slot dead, and publishing looks at dead slots too,
so a generation survives the removal of its policy.
-/

namespace Pacing

/-- Scope at which a policy applies. -/
inductive PacingLayer
  | resource | flow
  deriving DecidableEq, Repr

def PacingLayer.toByte : PacingLayer → UInt8
  | .resource => 0
  | .flow => 1

/-- A per-service-class refinement. -/
structure ServiceClassException where
  serviceClass : ServiceClassId := {}
  minRateBps : UInt64 := 0
  rateSharePpm : UInt64 := 0
  burstBytes : UInt64 := 0
  burstPackets : UInt64 := 0
  priority : UInt32 := 0
  deriving DecidableEq, Repr

structure PacingPolicy where
  ref : PolicyRef := {}
  layer : PacingLayer := .resource
  resource : ResourceId := {}
  flow : FlowId := {}
  rateSharePpm : UInt64 := 1000000
  rateBps : UInt64 := 0
  minRateBps : UInt64 := 0
  burstBytes : UInt64 := 0
  burstPackets : UInt64 := 0
  quantumBytes : UInt64 := 0
  windowNs : UInt64 := 0
  shape : CadenceShape := .uniform
  grantsPerWindowHint : UInt64 := 0
  path : PathRef := {}
  defaultServiceClass : ServiceClassId := {}
  exceptions : List ServiceClassException := []
  tenant : TenantId := {}
  provenance : ProvenanceId := {}
  publishedAt : Instant := {}
  deriving DecidableEq, Repr

namespace PacingPolicy

def appliesTo (policy : PacingPolicy) (candidate : FlowId) (candidateResource : ResourceId) :
    Bool :=
  if policy.layer = .flow then policy.flow == candidate
  else policy.resource == candidateResource

/-- The loop of `validate_policy` over the exception table; each entry is also compared
with the entries after it. -/
def validateExceptions (limits : Limits) : List ServiceClassException → Status
  | [] => .success
  | ex :: rest =>
    if !ex.serviceClass.valid then
      .of .invalidArgument "service class exception has zero id"
    else if ex.rateSharePpm > 1000000 then
      .of .outOfRange "exception rate share exceeds 1000000 ppm"
    else if ex.minRateBps > limits.maxRateBps then
      .of .outOfRange "exception floor above configured limit"
    else if ex.burstBytes > limits.maxBurstBytes then
      .of .burstExceedsBound "exception burst bytes above limit"
    else if ex.burstPackets > limits.maxBurstPackets then
      .of .burstExceedsBound "exception burst packets above limit"
    else if rest.any (·.serviceClass == ex.serviceClass) then
      .of .invalidArgument "duplicate service class exception"
    else validateExceptions limits rest

/-- `validate_policy`. -/
def validate (policy : PacingPolicy) (limits : Limits) : Status :=
  if !policy.ref.id.valid then .of .invalidArgument "policy id is zero"
  else if !policy.ref.generation.known then
    .of .invalidArgument "policy generation is unknown"
  else if policy.layer = .resource ∧ !policy.resource.valid then
    .of .invalidArgument "resource-layer policy has no resource"
  else if policy.layer = .flow ∧ !policy.flow.valid then
    .of .invalidArgument "flow-layer policy has no flow"
  else if !policy.path.known then
    .of .invalidArgument "policy path binding is not generation-bound"
  else if policy.rateSharePpm > 1000000 then
    .of .outOfRange "policy rate share exceeds 1000000 ppm"
  else if policy.rateBps > limits.maxRateBps then
    .of .outOfRange "policy rate above configured limit"
  else if policy.minRateBps > limits.maxRateBps then
    .of .outOfRange "policy floor above configured limit"
  else if policy.quantumBytes == 0 || decide (policy.quantumBytes > limits.maxQuantumBytes) then
    .of .outOfRange "policy quantum out of range"
  else if decide (policy.windowNs < limits.minWindowNs) ||
      decide (policy.windowNs > limits.maxWindowNs) then
    .of .outOfRange "policy window out of range"
  else if policy.burstBytes > limits.maxBurstBytes then
    .of .burstExceedsBound "policy burst bytes above limit"
  else if policy.burstPackets > limits.maxBurstPackets then
    .of .burstExceedsBound "policy burst packets above limit"
  else if policy.grantsPerWindowHint > nanosPerSecond then
    .of .outOfRange "policy grants-per-window hint above bound"
  else if policy.exceptions.length > limits.maxServiceClassExceptions.toNat then
    .of .oversized "policy exception table above bound"
  else validateExceptions limits policy.exceptions

def findException (policy : PacingPolicy) (serviceClass : ServiceClassId) :
    Option ServiceClassException :=
  if !serviceClass.valid then none
  else policy.exceptions.find? (·.serviceClass == serviceClass)

/-- `policy_digest`. -/
def digest (policy : PacingPolicy) : UInt64 :=
  let head := ({} : Digest64)
    |>.mixU64 policy.ref.id.value
    |>.mixU64 policy.ref.generation.value
    |>.mixU64 policy.layer.toByte.toUInt64
    |>.mixU64 policy.resource.value
    |>.mixU64 policy.flow.value
    |>.mixU64 policy.rateSharePpm
    |>.mixU64 policy.rateBps
    |>.mixU64 policy.minRateBps
    |>.mixU64 policy.burstBytes
    |>.mixU64 policy.burstPackets
    |>.mixU64 policy.quantumBytes
    |>.mixU64 policy.windowNs
    |>.mixU64 policy.shape.toByte.toUInt64
    |>.mixU64 policy.grantsPerWindowHint
    |>.mixU64 policy.path.id.value
    |>.mixU64 policy.path.generation.value
    |>.mixU64 policy.defaultServiceClass.value
    |>.mixU64 policy.tenant.value
    |>.mixU64 policy.provenance.value
    |>.mixU64 (UInt64.ofNat policy.exceptions.length)
  (policy.exceptions.foldl (fun d ex => d
    |>.mixU64 ex.serviceClass.value
    |>.mixU64 ex.minRateBps
    |>.mixU64 ex.rateSharePpm
    |>.mixU64 ex.burstBytes
    |>.mixU64 ex.burstPackets
    |>.mixU64 ex.priority.toUInt64) head).value

end PacingPolicy

structure PolicyEntry where
  policy : PacingPolicy := {}
  live : Bool := true
  deriving DecidableEq, Repr

/-- The slots of the store, in the order they were first filled. -/
abbrev PolicyStore := List PolicyEntry

namespace PolicyStore

/-- The slot test of `publish` and `restore`, which looks at dead slots too. -/
def names (id : PolicyId) (entry : PolicyEntry) : Bool := entry.policy.ref.id == id

/-- The slot test of `get` and `remove`. -/
def holds (id : PolicyId) (entry : PolicyEntry) : Bool := entry.live && names id entry

/-- A publication that names no generation asks for the first one. -/
def defaulted (policy : PacingPolicy) : PacingPolicy :=
  if !policy.ref.generation.known then
    { policy with ref := { policy.ref with generation := .first } }
  else policy

/-- Publication into an occupied slot. -/
def republish (limits : Limits) (store : PolicyStore) (i : Nat) (entry : PolicyEntry)
    (policy : PacingPolicy) : StatusOr PolicyRef × PolicyStore :=
  if !entry.live && decide (store.length ≥ limits.maxPolicies.toNat) then
    (.error (.of .resourceExhausted "policy store is full"), store)
  else if policy.ref.generation.value ≤ entry.policy.ref.generation.value then
    let (generation, exhausted) := entry.policy.ref.generation.next
    if exhausted then
      (.error (.of .resourceExhausted "policy generation exhausted"), store)
    else
      let policy := { policy with ref := { policy.ref with generation := generation } }
      (.ok policy.ref, store.set i ⟨policy, true⟩)
  else (.ok policy.ref, store.set i ⟨policy, true⟩)

def publish (limits : Limits) (store : PolicyStore) (policy : PacingPolicy) :
    StatusOr PolicyRef × PolicyStore :=
  let policy := defaulted policy
  let valid := policy.validate limits
  if !valid.isOk then (.error valid, store)
  else
    match store.find? (names policy.ref.id), store.findIdx? (names policy.ref.id) with
    | some entry, some i => republish limits store i entry policy
    | _, _ =>
      if store.length ≥ limits.maxPolicies.toNat then
        (.error (.of .resourceExhausted "policy store is full"), store)
      else (.ok policy.ref, store ++ [⟨policy, true⟩])

def restore (limits : Limits) (store : PolicyStore) (policy : PacingPolicy) :
    Status × PolicyStore :=
  let valid := policy.validate limits
  if !valid.isOk then (valid, store)
  else
    match store.findIdx? (names policy.ref.id) with
    | some i => (.success, store.set i ⟨policy, true⟩)
    | none =>
      if store.length ≥ limits.maxPolicies.toNat then
        (.of .resourceExhausted "policy store is full", store)
      else (.success, store ++ [⟨policy, true⟩])

def livePolicies (store : PolicyStore) : List PacingPolicy :=
  (store.filter (·.live)).map (·.policy)

def get (store : PolicyStore) (id : PolicyId) : StatusOr PacingPolicy :=
  match store.find? (holds id) with
  | some entry => .ok entry.policy
  | none => .error (.of .notFound "policy not found")

/-- The scan of `resolve`: the first live flow-layer policy wins, otherwise the resource
policy of the highest generation met so far. -/
def resolveFrom (flow : FlowId) (resource : ResourceId) :
    PolicyStore → Option PacingPolicy → Option PacingPolicy
  | [], best => best
  | entry :: rest, best =>
    if !entry.live then resolveFrom flow resource rest best
    else if !entry.policy.appliesTo flow resource then resolveFrom flow resource rest best
    else if entry.policy.layer = .flow then some entry.policy
    else
      match best with
      | none => resolveFrom flow resource rest (some entry.policy)
      | some current =>
        if entry.policy.ref.generation.value > current.ref.generation.value then
          resolveFrom flow resource rest (some entry.policy)
        else resolveFrom flow resource rest (some current)

def resolve (store : PolicyStore) (flow : FlowId) (resource : ResourceId) :
    StatusOr PacingPolicy :=
  match resolveFrom flow resource store none with
  | some policy => .ok policy
  | none => .error (.of .notFound "no policy governs this flow/resource binding")

def remove (store : PolicyStore) (id : PolicyId) : Status × PolicyStore :=
  match store.findIdx? (holds id) with
  | some i => (.success, store.modify i fun entry => { entry with live := false })
  | none => (.of .notFound "policy not found", store)

end PolicyStore

end Pacing
