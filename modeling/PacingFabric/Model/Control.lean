import PacingFabric.Model.Explain
import PacingFabric.Model.Serialize
import PacingFabric.Model.System

/-!
# The control plane

`ControlDispatcher::dispatch` applies one decoded request to the coordinator. The stamp is
checked first, in two locked reads, and then the operation runs like any other call. The
dispatches of different connections interleave. The payloads of `Explain` and `Stats` are
left empty, and so is that of `Recover`.
-/

namespace Pacing

/-- `Operation`, in the order of the wire contract. -/
inductive Operation
  | none | epoch | bindFlow | publishPolicy | deriveEnvelope | applyEnvelope | verifyAttempt
  | cancelAttempt | revokeEnvelope | explain | stats | advanceEpoch | revalidate | backends
  | recover | stop
  deriving DecidableEq, Repr

/-- The caller's view of coordinator authority. -/
structure CallerStamp where
  epoch : UInt64 := 0
  bootCounter : UInt64 := 0
  bootNonce : UInt64 := 0
  workerIncarnation : UInt64 := 0
  workerNonce : UInt64 := 0
  deriving DecidableEq, Repr

structure ControlRequest where
  op : Operation := .none
  stamp : CallerStamp := {}
  fields : Bytes := []
  deriving DecidableEq, Repr

structure ControlResponse where
  code : ErrorCode := .ok
  detail : Bytes := []
  payload : Bytes := []
  deriving DecidableEq, Repr

namespace ControlResponse

def failure (code : ErrorCode) (detail : Bytes) : ControlResponse := { code, detail }

def ofStatus (status : Status) : ControlResponse := failure status.code status.detail

/-- A response whose payload is written without a check of the writer. -/
def written (w : ByteWriter) : ControlResponse := { payload := w.buf }

/-- A response that fails when its writer does. -/
def finished (w : ByteWriter) : ControlResponse :=
  match w.finish with
  | .ok payload => { payload }
  | .error status => ofStatus status

end ControlResponse

/-- What a request asks of the coordinator: an operation, or a look at its state. -/
inductive Work
  | operate (request : Request)
  | inspect (flow : FlowId)
  | refuse (response : ControlResponse)

namespace ControlRequest

open Decode

/-- Fields that are read to their last byte. -/
def fieldsOf {α : Type} (fields : Bytes) (decode : Decode α) (detail : Bytes)
    (work : α → Work) : Work :=
  let (value, reader) := decode ⟨fields, none⟩
  if reader.exhausted then work value else .refuse (.failure .malformedInput detail)

def bindFields : Decode FlowBinding := do
  let flow ← Decode.id
  let resource ← genRef
  let path ← genRef
  let serviceClass ← Decode.id
  let tenant ← Decode.id
  let declaredMaxBurstBytes ← u64v
  let declaredMaxBurstPackets ← u64v
  let quiesced ← boolean
  let provenance ← Decode.id
  return { flow, resource, path, serviceClass, tenant, declaredMaxBurstBytes,
           declaredMaxBurstPackets, quiesced, provenance }

/-- The fields of each operation. -/
def work (limits : Limits) (r : ControlRequest) : Work :=
  match r.op with
  | .bindFlow => fieldsOf r.fields bindFields "bind-flow fields are malformed"
      fun binding => .operate (.bindFlow binding)
  | .publishPolicy =>
    match decodePolicy limits ⟨r.fields, Option.none⟩ with
    | (.error status, _) => .refuse (.ofStatus status)
    | (.ok policy, reader) =>
      if reader.exhausted then .operate (.publishPolicy policy)
      else .refuse (.failure .malformedInput "publish-policy fields have trailing bytes")
  | .deriveEnvelope => fieldsOf r.fields Decode.id "derive-envelope fields are malformed"
      fun flow => .operate (.deriveEnvelope flow)
  | .applyEnvelope =>
    fieldsOf r.fields (do return (← genRef, ← Decode.id, ← Decode.id))
      "apply-envelope fields are malformed"
      fun (envelope, backend, requested) => .operate (.applyEnvelope envelope backend requested)
  | .verifyAttempt => fieldsOf r.fields Decode.id "attempt fields are malformed"
      fun attempt => .operate (.verifyAttempt attempt)
  | .revalidate => fieldsOf r.fields Decode.id "attempt fields are malformed"
      fun attempt => .operate (.revalidate attempt)
  | .cancelAttempt =>
    fieldsOf r.fields (do return (← Decode.id, ← str limits.maxExplanationBytes.toNat))
      "cancel-attempt fields are malformed"
      fun (attempt, reason) => .operate (.cancelAttempt attempt reason)
  | .revokeEnvelope =>
    fieldsOf r.fields (do return (← genRef, ← str limits.maxExplanationBytes.toNat))
      "revoke-envelope fields are malformed"
      fun (envelope, reason) => .operate (.revokeEnvelope envelope reason)
  | .explain => fieldsOf r.fields Decode.id "explain fields are malformed" .inspect
  | .advanceEpoch => .operate .advanceEpoch
  | .epoch | .stats | .backends | .recover | .stop => .inspect {}
  | .none => .refuse (.failure .unsupported "operation is not supported")

end ControlRequest

/-- The response to an operation, from what is read back once it has returned. -/
def respondTo (f : Fabric) (a : Answers) (r : ControlRequest) : Reply → ControlResponse
  | .envelope (.error status) | .attempt (.error status) | .policy (.error status) =>
    .ofStatus status
  | .envelope (.ok envelope) => .finished (encodeEnvelope ⟨encodeCapacityBytes, [], none⟩ envelope)
  | .attempt (.ok attempt) => .written ((⟨64, [], none⟩ : ByteWriter).u64v attempt.value)
  | .policy (.ok ref) =>
    .written (((⟨64, [], none⟩ : ByteWriter).u64v ref.id.value).u64v ref.generation.value)
  | .status status =>
    if !status.isOk then .ofStatus status
    else
      let attempt := fun (id : AttemptId) =>
        match f.attempts.record id with
        | none => .failure .notFound "attempt not found"
        | some record => .written (encodeAttempt ⟨encodeCapacityBytes, [], none⟩ record)
      match r.work f.config.limits with
      | .operate (.bindFlow binding) =>
        match BindingRegistry.get f.bindings binding.flow with
        | .error status => .ofStatus status
        | .ok stored => .written ((⟨64, [], none⟩ : ByteWriter).u64v stored.generation.value)
      | .operate (.verifyAttempt id) | .operate (.revalidate id) | .operate (.cancelAttempt id _) =>
        attempt id
      | .operate .advanceEpoch =>
        .written ((⟨64, [], none⟩ : ByteWriter).u64v f.epoch.value)
      | _ =>
        match r.op with
        | .epoch =>
          .finished (((((⟨encodeCapacityBytes, [], none⟩ : ByteWriter).u64v f.epoch.value).u64v
            f.boot.counter).u64v f.boot.nonce).boolean f.running)
        | .backends =>
          .finished (f.backends.foldl (fun w backend => encodeBackendDescriptor w
              (a.describe backend.2))
            ((⟨encodeCapacityBytes, [], none⟩ : ByteWriter).u32v (UInt32.ofNat f.backends.length)))
        | _ => {}

/-- A dispatch in progress. -/
inductive Dispatch
  | check (request : ControlRequest)
  | checkBoot (request : ControlRequest)
  | decode (request : ControlRequest)
  | operate (request : ControlRequest) (call : Call)
  | inspect (request : ControlRequest) (flow : FlowId)
  | readBack (request : ControlRequest) (reply : Reply)
  | respond (response : ControlResponse)

namespace Dispatch

/-- `Epoch` and `Stop` are not checked. -/
def begin (r : ControlRequest) : Dispatch :=
  if r.op = .epoch ∨ r.op = .stop then .decode r else .check r

/-- One step of a dispatch; `limits` are the dispatcher's own. -/
def step (limits : Limits) (f : Fabric) (a : Answers) : Dispatch → Fabric × Option Dispatch
  | .check r =>
    (f, some (
      if r.stamp.epoch = 0 then
        .respond (.failure .staleEpoch "request carries no coordinator epoch")
      else if r.stamp.epoch ≠ f.epoch.value then
        .respond (.failure .staleEpoch "request epoch is not the current coordinator epoch")
      else .checkBoot r))
  | .checkBoot r =>
    (f, some (
      if r.stamp.bootNonce ≠ 0 ∧ r.stamp.bootNonce ≠ f.boot.nonce then
        .respond (.failure .staleBoot "request boot nonce is not the current coordinator boot")
      else .decode r))
  | .decode r =>
    (f, some (
      match r.work limits with
      | .operate request => .operate r (Call.begin request)
      | .inspect flow => .inspect r flow
      | .refuse response => .respond response))
  | .operate r call =>
    ((Call.step f a call).1, some (
      match call, (Call.step f a call).2 with
      | _, some call => .operate r call
      | .leave reply, none => .readBack r reply
      | _, none => .readBack r (.status .success)))
  | .inspect r flow =>
    -- `explain` fetches the authority of the flow, which reads the clock
    match r.op with
    | .explain =>
      let (current, f') := f.fetchAuthority a flow
      match f.explain flow (Fabric.checkGrant a.grant) current with
      | .error status => (f', some (.respond (.ofStatus status)))
      | .ok _ => (f', some (.respond {}))
    | _ => (f, some (.readBack r (.status .success)))
  | .readBack r reply => (f, some (.respond (respondTo f a r reply)))
  | .respond _ => (f, none)

end Dispatch

/-- The coordinator behind its control plane. -/
def control (limits : Limits) : Interleaving.Program Fabric Dispatch ControlRequest Answers where
  begin := Dispatch.begin
  step := Dispatch.step limits
  restarts f f' := ∃ config a, f' = ((Fabric.construct config f.storage.disk).initializeFabric a).2

end Pacing
