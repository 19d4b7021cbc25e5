import PacingFabric.Model.Codec
import PacingFabric.Model.Checked
import PacingFabric.Model.Crc32c
import PacingFabric.Model.DurableFile
import PacingFabric.Model.Limits

/-!
# Framed transport

One connection of the control plane: `send` writes a 24-byte header and a payload, `receive`
reads them back and checks every field. A framing failure poisons the connection, which
closes its socket and refuses everything afterwards.

The socket is its two byte streams: what the peer sends before it closes, and what was
written. How many bytes a call to `send` may write before the socket fails is an argument.
-/

namespace Pacing

/-- `kFrameMagic`. -/
def frameMagic : ℕ := 0x31524650

def frameHeaderBytes : ℕ := 24

def wireProtocolVersion : ℕ := 1

inductive FrameType
  | hello | welcome | request | response | fault | shutdown
  deriving DecidableEq, Repr

/-- The discriminant of the source's enumeration. -/
def FrameType.raw : FrameType → ℕ
  | .hello => 1
  | .welcome => 2
  | .request => 3
  | .response => 4
  | .fault => 5
  | .shutdown => 6

/-- The check on a received discriminant, followed by the cast. -/
def FrameType.ofRaw? : ℕ → Option FrameType
  | 1 => some .hello
  | 2 => some .welcome
  | 3 => some .request
  | 4 => some .response
  | 5 => some .fault
  | 6 => some .shutdown
  | _ => none

structure Frame where
  type : FrameType := .request
  requestId : UInt64 := 0
  payload : Bytes := []
  deriving DecidableEq, Repr

namespace Frame

/-- The header fields that the checksum covers. -/
def covered (type : FrameType) (requestId : UInt64) (payloadLen : ℕ) : Bytes :=
  littleEndian 2 wireProtocolVersion ++ littleEndian 2 type.raw ++
    littleEndian 8 requestId.toNat ++ littleEndian 4 payloadLen

/-- `crc32c_extend(crc32c(header + 4, 16), payload)`. -/
def checksum (covered payload : Bytes) : UInt32 := crc32cExtend (crc32c covered) payload

/-- The header of a frame. -/
def header (f : Frame) (payloadLen : UInt32) : Bytes :=
  let covered := covered f.type f.requestId payloadLen.toNat
  littleEndian 4 frameMagic ++ covered ++ littleEndian 4 (checksum covered f.payload).toNat

end Frame

/-- `FramedConnection`: the handle is valid while the socket is open. -/
structure FramedConnection where
  incoming : Bytes
  outgoing : Bytes := []
  valid : Bool := true
  poisonReason : Option Status := none

namespace FramedConnection

/-- `FramedConnection::adopt`. -/
def adopt (incoming : Bytes) : FramedConnection := { incoming }

def poisoned (c : FramedConnection) : Bool := c.poisonReason.isSome

def close (c : FramedConnection) : FramedConnection := { c with valid := false }

/-- The first reason stays. -/
def poison (c : FramedConnection) (reason : Status) : FramedConnection :=
  if c.poisoned then c else { c with poisonReason := some reason }.close

/-- `send_all`: the socket takes at most `room` bytes. -/
def sendAll (c : FramedConnection) (data : Bytes) (room : ℕ) : Bool × FramedConnection :=
  (decide (data.length ≤ room), { c with outgoing := c.outgoing ++ data.take room })

/-- `recv_exact`: exactly `n` bytes, or everything that is left and a failure. -/
def recvExact (c : FramedConnection) (n : ℕ) : Option Bytes × FramedConnection :=
  if n ≤ c.incoming.length then
    (some (c.incoming.take n), { c with incoming := c.incoming.drop n })
  else (none, { c with incoming := [] })

def send (c : FramedConnection) (f : Frame) (limits : Limits) (room : ℕ) :
    Status × FramedConnection :=
  if c.poisoned then
    (.of .invalidState "connection is unusable after a framing failure", c)
  else if !c.valid then (.of .backendUnavailable "connection is closed", c)
  else if f.payload.length > limits.maxFramePayloadBytes.toNat then
    (.of .oversized "frame payload above configured bound", c)
  else
    match Checked.narrowU32 f.payload.length with
    | none => (.of .oversized "frame payload length is not representable", c)
    | some payloadLen =>
      match c.sendAll (f.header payloadLen) room with
      | (false, c) =>
        let failure := Status.of .ioFailure "frame header send failed"
        (failure, c.poison failure)
      | (true, c) =>
        match c.sendAll f.payload (room - frameHeaderBytes) with
        | (false, c) =>
          let failure := Status.of .ioFailure "frame payload send failed"
          (failure, c.poison failure)
        | (true, c) => (.success, c)

/-- A framing failure: the reason poisons the connection and is the answer. -/
def fail (c : FramedConnection) (reason : Status) : StatusOr Frame × FramedConnection :=
  (.error reason, c.poison reason)

def receive (c : FramedConnection) (limits : Limits) : StatusOr Frame × FramedConnection :=
  if c.poisoned then
    (.error (.of .invalidState "connection is unusable after a framing failure"), c)
  else if !c.valid then (.error (.of .backendUnavailable "connection is closed"), c)
  else
    match c.recvExact frameHeaderBytes with
    | (none, c) => c.fail (.of .ioFailure "frame header read failed or peer closed")
    | (some header, c) =>
      if DurableFile.field header 0 4 ≠ frameMagic then
        c.fail (.of .malformedInput "frame magic mismatch")
      else if DurableFile.field header 4 2 ≠ wireProtocolVersion then
        c.fail (.of .unsupported "frame protocol version mismatch")
      else
        match FrameType.ofRaw? (DurableFile.field header 6 2) with
        | none => c.fail (.of .malformedInput "frame type discriminator out of range")
        | some type =>
          let payloadLen := DurableFile.field header 16 4
          if payloadLen > limits.maxFramePayloadBytes.toNat then
            c.fail (.of .oversized "frame payload above configured bound")
          else
            match c.recvExact payloadLen with
            | (none, c) => c.fail (.of .malformedInput "frame payload truncated")
            | (some payload, c) =>
              let covered := (header.drop 4).take 16
              if (Frame.checksum covered payload).toNat ≠ DurableFile.field header 20 4 then
                c.fail (.of .integrityFailure "frame checksum mismatch")
              else
                let requestId := UInt64.ofNat (DurableFile.field header 8 8)
                (.ok { type, requestId, payload }, c)

/-- What the owner of a connection calls on it. -/
inductive Call
  | send (frame : Frame) (room : ℕ)
  | receive

inductive Reply
  | sent (status : Status)
  | received (outcome : StatusOr Frame)

def call (limits : Limits) (c : FramedConnection) : Call → Reply × FramedConnection
  | .send frame room =>
    let (status, c) := c.send frame limits room
    (.sent status, c)
  | .receive =>
    let (outcome, c) := c.receive limits
    (.received outcome, c)

/-- Calls one after another, and what they answered. -/
def run (limits : Limits) : FramedConnection → List Call → List Reply × FramedConnection
  | c, [] => ([], c)
  | c, next :: calls =>
    let (reply, c) := c.call limits next
    let (replies, c) := run limits c calls
    (reply :: replies, c)

end FramedConnection

end Pacing
