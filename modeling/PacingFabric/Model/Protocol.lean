import PacingFabric.Model.Control
import PacingFabric.Model.Transport

/-!
# The control protocol

What a control connection carries. A client sends each request in a frame with the next
request id and waits for one reply. The server expects a hello before any request, answers
it with the epoch and the boot it holds, and answers each request with what its dispatch
made of it.
-/

namespace Pacing

/-- `kControlCapacity`. -/
def controlCapacityBytes : ℕ := 1 <<< 20

/-- A writer as the source opens them. -/
def ByteWriter.ofCapacity (capacity : ℕ) : ByteWriter := ⟨capacity, [], none⟩

/-- The discriminant of the source's enumeration. -/
def Operation.raw : Operation → UInt16
  | .none => 0
  | .epoch => 1
  | .bindFlow => 2
  | .publishPolicy => 3
  | .deriveEnvelope => 4
  | .applyEnvelope => 5
  | .verifyAttempt => 6
  | .cancelAttempt => 7
  | .revokeEnvelope => 8
  | .explain => 9
  | .stats => 10
  | .advanceEpoch => 11
  | .revalidate => 12
  | .backends => 13
  | .recover => 14
  | .stop => 15

/-- The operations in the order of their discriminants. -/
def Operation.listed : List Operation :=
  [.none, .epoch, .bindFlow, .publishPolicy, .deriveEnvelope, .applyEnvelope, .verifyAttempt,
   .cancelAttempt, .revokeEnvelope, .explain, .stats, .advanceEpoch, .revalidate, .backends,
   .recover, .stop]

/-- The check on a received discriminant, followed by the cast. -/
def Operation.ofRaw? (raw : UInt16) : Option Operation := listed[raw.toNat]?

/-! ### Codec -/

/-- `tail`: exactly `n` bytes. -/
def Decode.tail (n : ℕ) : Decode Bytes := fun r =>
  match r.take n with
  | (some bytes, r) => (bytes, r)
  | (none, r) => ([], r)

def encodeStamp (w : ByteWriter) (s : CallerStamp) : ByteWriter :=
  w.u64v s.epoch
    |>.u64v s.bootCounter
    |>.u64v s.bootNonce
    |>.u64v s.workerIncarnation
    |>.u64v s.workerNonce

section
open Decode

def decodeStamp : Decode (StatusOr CallerStamp) := do
  let epoch ← u64v
  let bootCounter ← u64v
  let bootNonce ← u64v
  let workerIncarnation ← u64v
  let workerNonce ← u64v
  match ← failure with
  | some status => return .error status
  | none => return .ok { epoch, bootCounter, bootNonce, workerIncarnation, workerNonce }

/-- A block of bytes under its length, written byte by byte. -/
def ByteWriter.block (w : ByteWriter) (bytes : Bytes) : ByteWriter :=
  bytes.foldl ByteWriter.u8v (w.u32v (UInt32.ofNat bytes.length))

/-- The length of a block, its bound, and the block. -/
def decodeBlock (limits : Limits) (detail : Bytes) : Decode (StatusOr Bytes) := do
  let length ← u32v
  match ← failure with
  | some status => return .error status
  | none =>
    if length > limits.maxFramePayloadBytes then return .error (.of .oversized detail)
    else
      let bytes ← tail length.toNat
      match ← failure with
      | some status => return .error status
      | none => return .ok bytes

def encodeRequest (w : ByteWriter) (r : ControlRequest) : ByteWriter :=
  (encodeStamp (w.u16v r.op.raw) r.stamp).block r.fields

def decodeRequest (limits : Limits) : Decode (StatusOr ControlRequest) := do
  let rawOp ← u16v
  match ← failure with
  | some status => return .error status
  | none =>
    match Operation.ofRaw? rawOp with
    | none => return .error (.of .malformedInput "operation discriminator out of range")
    | some op =>
      match ← decodeStamp with
      | .error status => return .error status
      | .ok stamp =>
        match ← decodeBlock limits "request field block above configured bound" with
        | .error status => return .error status
        | .ok fields => return .ok { op, stamp, fields }

def encodeResponse (w : ByteWriter) (r : ControlResponse) : ByteWriter :=
  ((w.u16v r.code.toU16).str r.detail).block r.payload

def decodeResponse (limits : Limits) : Decode (StatusOr ControlResponse) := do
  let rawCode ← u16v
  match ← failure with
  | some status => return .error status
  | none =>
    let detail ← str limits.maxExplanationBytes.toNat
    match ← failure with
    | some status => return .error status
    | none =>
      match ← decodeBlock limits "response payload above configured bound" with
      | .error status => return .error status
      | .ok payload => return .ok { code := ErrorCode.ofU16 rawCode, detail, payload }

/-- `decode_epoch_payload`. -/
def decodeEpochPayload : Decode (StatusOr (Epoch × BootId × Bool)) := do
  let epoch ← u64v
  let counter ← u64v
  let nonce ← u64v
  let running ← boolean
  match ← failure with
  | some status => return .error status
  | none => return .ok (⟨epoch⟩, ⟨counter, nonce⟩, running)

/-- The payload of a hello frame: the name of the agent and its stamp. -/
def decodeHello (limits : Limits) : Decode (StatusOr (Bytes × CallerStamp)) := do
  let agentName ← str limits.maxNameBytes.toNat
  match ← decodeStamp with
  | .error status => return .error status
  | .ok claimed => return .ok (agentName, claimed)

end

/-! ### Server -/

/-- What the server does with a frame it received. -/
inductive Handling
  | finish
  | refuse (response : ControlResponse) (finish : Bool)
  | welcome (agentName : Bytes) (claimed : CallerStamp)
  | dispatch (request : ControlRequest)
  deriving DecidableEq, Repr

/-- The tests of `serve` on a received frame, in the order of the source. -/
def handle (limits : Limits) (established : Bool) (frame : Frame) : Handling :=
  match frame.type with
  | .shutdown => .finish
  | .hello =>
    match decodeHello limits ⟨frame.payload, none⟩ with
    | (.ok (agentName, claimed), reader) =>
      if reader.exhausted then .welcome agentName claimed
      else .refuse (.failure .malformedInput "hello payload is malformed") true
    | (.error _, _) => .refuse (.failure .malformedInput "hello payload is malformed") true
  | .request =>
    if !established then
      .refuse (.failure .invalidState "hello handshake required before requests") false
    else
      match decodeRequest limits ⟨frame.payload, none⟩ with
      | (.error status, _) => .refuse (.ofStatus status) false
      | (.ok request, reader) =>
        if reader.exhausted then .dispatch request
        else .refuse (.failure .malformedInput "request has trailing bytes") false
  | _ => .refuse (.failure .malformedInput "unexpected frame type") false

/-- The welcome: what the coordinator reports of itself. -/
def welcomeResponse (epoch : Epoch) (boot : BootId) (running : Bool) : ControlResponse :=
  .finished ((((ByteWriter.ofCapacity 128).u64v epoch.value).u64v boot.counter).u64v
    boot.nonce |>.boolean running)

/-- The frame `send_response` sends, or why it sends none. -/
def responseFrame (requestId : UInt64) (fault : Bool) (response : ControlResponse) :
    StatusOr Frame :=
  match (encodeResponse (.ofCapacity controlCapacityBytes) response).finish with
  | .error status => .error status
  | .ok payload => .ok { type := if fault then .fault else .response, requestId, payload }

/-- `send_response`. -/
def FramedConnection.sendResponse (c : FramedConnection) (limits : Limits) (requestId : UInt64)
    (fault : Bool) (response : ControlResponse) (room : ℕ) : Status × FramedConnection :=
  match responseFrame requestId fault response with
  | .error status => (status, c)
  | .ok frame => c.send frame limits room

/-! ### Client -/

structure ControlClient where
  connection : FramedConnection
  limits : Limits := {}
  stamp : CallerStamp := {}
  requestId : UInt64 := 0

namespace ControlClient

/-- Sends the next frame, under the next request id. -/
def sendNext (c : ControlClient) (type : FrameType) (payload : Bytes) (room : ℕ) :
    Status × ControlClient :=
  let (status, connection) :=
    c.connection.send { type, requestId := c.requestId + 1, payload } c.limits room
  (status, { c with connection, requestId := c.requestId + 1 })

/-- The half of `call_with_stamp` before the reply. -/
def sendRequest (c : ControlClient) (op : Operation) (fields : Bytes) (stamp : CallerStamp)
    (room : ℕ) : Status × ControlClient :=
  match (encodeRequest (.ofCapacity controlCapacityBytes) { op, stamp, fields }).finish with
  | .error status => (status, c)
  | .ok payload => c.sendNext .request payload room

/-- The half of `handshake` before the reply. -/
def sendHello (c : ControlClient) (agentName : Bytes) (room : ℕ) : Status × ControlClient :=
  match (encodeStamp ((ByteWriter.ofCapacity controlCapacityBytes).str agentName) c.stamp).finish
  with
  | .error status => (status, c)
  | .ok payload => c.sendNext .hello payload room

/-- The half of `handshake` after the hello: the stamp becomes what the server reported. -/
def receiveWelcome (c : ControlClient) : Status × ControlClient :=
  match c.connection.receive c.limits with
  | (.error status, connection) => (status, { c with connection })
  | (.ok reply, connection) =>
    let c := { c with connection }
    if reply.type ≠ .response then
      (.of .invalidState "server did not answer the handshake with a welcome", c)
    else
      let malformed := Status.of .malformedInput "welcome payload is malformed"
      match decodeResponse c.limits ⟨reply.payload, none⟩ with
      | (.error _, _) => (malformed, c)
      | (.ok response, reader) =>
        if !reader.exhausted then (malformed, c)
        else if response.code ≠ .ok then (.of response.code response.detail, c)
        else
          let incomplete := Status.of .malformedInput "welcome payload is incomplete"
          match decodeEpochPayload ⟨response.payload, none⟩ with
          | (.error _, _) => (incomplete, c)
          | (.ok (epoch, boot, _), reader) =>
            if !reader.exhausted then (incomplete, c)
            else
              (.success, { c with stamp :=
                { epoch := epoch.value, bootCounter := boot.counter, bootNonce := boot.nonce,
                  workerIncarnation := boot.counter, workerNonce := boot.nonce } })

end ControlClient

/-- The fields of a typed helper of the client: what its writer holds when it is taken. -/
abbrev Fields := StatusOr Bytes

namespace Fields

/-- A helper that asks its writer before it takes the buffer. -/
def checked (w : ByteWriter) : Fields := w.finish

/-- A helper that takes the buffer as it is. -/
def taken (w : ByteWriter) : Fields := .ok w.buf

def bindFlow (b : FlowBinding) : Fields :=
  checked ((ByteWriter.ofCapacity controlCapacityBytes).id b.flow
    |>.genRef b.resource
    |>.genRef b.path
    |>.id b.serviceClass
    |>.id b.tenant
    |>.u64v b.declaredMaxBurstBytes
    |>.u64v b.declaredMaxBurstPackets
    |>.boolean b.quiesced
    |>.id b.provenance)

def publishPolicy (p : PacingPolicy) : Fields :=
  checked (encodePolicy (.ofCapacity controlCapacityBytes) p)

/-- `derive_envelope`, `explain`, `verify_attempt` and `revalidate` send one identity. -/
def identity {tag : Tag} (id : Id tag) : Fields := taken ((ByteWriter.ofCapacity 64).id id)

def applyEnvelope (envelope : EnvelopeRef) (backend : BackendId) (requested : AttemptId) :
    Fields :=
  taken (((ByteWriter.ofCapacity 64).genRef envelope).id backend |>.id requested)

def cancelAttempt (attempt : AttemptId) (reason : Bytes) : Fields :=
  taken (((ByteWriter.ofCapacity 512).id attempt).str reason)

def revokeEnvelope (envelope : EnvelopeRef) (reason : Bytes) : Fields :=
  taken (((ByteWriter.ofCapacity 512).genRef envelope).str reason)

end Fields

end Pacing
