import PacingFabric.Model.Id
import PacingFabric.Model.Limits

/-!
# The flow binding registry

A binding states that a flow is carried on a resource over a path at a generation. Slots
are never removed: unbinding marks the slot dead, and `bind` looks at live slots only,
whereas `restore` reuses a slot whatever its mark.
-/

namespace Pacing

structure FlowBinding where
  flow : FlowId := {}
  generation : Generation := {}
  resource : ResourceRef := {}
  path : PathRef := {}
  serviceClass : ServiceClassId := {}
  tenant : TenantId := {}
  declaredMaxBurstBytes : UInt64 := 0
  declaredMaxBurstPackets : UInt64 := 0
  quiesced : Bool := false
  provenance : ProvenanceId := {}
  deriving DecidableEq, Repr

namespace FlowBinding

def usable (b : FlowBinding) : Bool :=
  b.flow.valid && b.generation.known && b.resource.known && b.path.known && !b.quiesced

def digest (b : FlowBinding) : UInt64 :=
  ({} : Digest64)
    |>.mixU64 b.flow.value
    |>.mixU64 b.generation.value
    |>.mixU64 b.resource.id.value
    |>.mixU64 b.resource.generation.value
    |>.mixU64 b.path.id.value
    |>.mixU64 b.path.generation.value
    |>.mixU64 b.serviceClass.value
    |>.mixU64 b.tenant.value
    |>.mixU64 b.declaredMaxBurstBytes
    |>.mixU64 b.declaredMaxBurstPackets
    |>.mixBool b.quiesced
    |>.mixU64 b.provenance.value
    |>.value

end FlowBinding

structure BindingEntry where
  binding : FlowBinding := {}
  live : Bool := true
  deriving DecidableEq, Repr

/-- The slots of the registry, in the order they were first filled. -/
abbrev BindingRegistry := List BindingEntry

namespace BindingRegistry

/-- The slot test of `bind`, `get`, `unbind` and `quiesce`. -/
def holds (flow : FlowId) (entry : BindingEntry) : Bool :=
  entry.live && entry.binding.flow == flow

/-- The validation `bind` runs before it touches the registry. -/
def check (limits : Limits) (binding : FlowBinding) : Status :=
  if !binding.flow.valid then .of .invalidArgument "binding flow id is zero"
  else if !binding.resource.known then
    .of .invalidArgument "binding resource reference is not generation-bound"
  else if !binding.path.known then
    .of .invalidArgument "binding path reference is not generation-bound"
  else if binding.declaredMaxBurstBytes > limits.maxBurstBytes then
    .of .burstExceedsBound "binding burst bytes above limit"
  else if binding.declaredMaxBurstPackets > limits.maxBurstPackets then
    .of .burstExceedsBound "binding burst packets above limit"
  else .success

/-- A caller that names no generation asks for the first one. -/
def defaulted (binding : FlowBinding) : FlowBinding :=
  if !binding.generation.known then { binding with generation := .first } else binding

def bind (limits : Limits) (registry : BindingRegistry) (binding : FlowBinding) :
    Status × BindingRegistry :=
  let valid := check limits binding
  if !valid.isOk then (valid, registry)
  else
    let binding := defaulted binding
    match registry.findIdx? (holds binding.flow) with
    | some i =>
      match registry[i]? with
      | none => (.success, registry)
      | some entry =>
        -- rebinding a live flow always advances its generation
        if binding.generation.value ≤ entry.binding.generation.value then
          let (generation, exhausted) := entry.binding.generation.next
          if exhausted then (.of .resourceExhausted "binding generation exhausted", registry)
          else
            (.success, registry.set i
              { entry with binding := { binding with generation := generation } })
        else (.success, registry.set i { entry with binding := binding })
    | none =>
      if registry.length ≥ limits.maxFlows.toNat then
        (.of .resourceExhausted "binding registry is full", registry)
      else (.success, registry ++ [⟨binding, true⟩])

def restore (limits : Limits) (registry : BindingRegistry) (binding : FlowBinding) :
    Status × BindingRegistry :=
  if !binding.flow.valid || !binding.generation.known then
    (.of .malformedInput "restored binding identity is invalid", registry)
  else
    match registry.findIdx? (fun entry => entry.binding.flow == binding.flow) with
    | some i => (.success, registry.set i ⟨binding, true⟩)
    | none =>
      if registry.length ≥ limits.maxFlows.toNat then
        (.of .resourceExhausted "binding registry is full", registry)
      else (.success, registry ++ [⟨binding, true⟩])

def get (registry : BindingRegistry) (flow : FlowId) : StatusOr FlowBinding :=
  match registry.find? (holds flow) with
  | some entry => .ok entry.binding
  | none => .error (.of .notFound "flow binding not found")

def unbind (registry : BindingRegistry) (flow : FlowId) : Status × BindingRegistry :=
  match registry.findIdx? (holds flow) with
  | some i => (.success, registry.modify i fun entry => { entry with live := false })
  | none => (.of .notFound "flow binding not found", registry)

/-- The slot has its new mark and generation even when the generation is reported as
exhausted. -/
def quiesce (registry : BindingRegistry) (flow : FlowId) (quiesced : Bool) :
    Status × BindingRegistry :=
  match registry.find? (holds flow), registry.findIdx? (holds flow) with
  | some entry, some i =>
    let (generation, exhausted) := entry.binding.generation.next
    let registry := registry.set i
      { entry with binding := { entry.binding with
          quiesced := quiesced, generation := generation } }
    if exhausted then (.of .resourceExhausted "binding generation exhausted", registry)
    else (.success, registry)
  | _, _ => (.of .notFound "flow binding not found", registry)

def liveBindings (registry : BindingRegistry) : List FlowBinding :=
  (registry.filter (·.live)).map (·.binding)

end BindingRegistry

end Pacing
