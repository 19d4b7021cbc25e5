import PacingFabric.Model.Explain

/-!
# Rendering an explanation

`to_json` writes one object member by member. Texts are escaped byte by byte, keep at most
256 bytes of their source and end in an ellipsis when they were longer; keys are literals
and are written as they are.
-/

namespace Pacing

/-- `to_string(ErrorCode)`. -/
def ErrorCode.text : ErrorCode → Bytes
  | .ok => "Ok"
  | .invalidArgument => "InvalidArgument"
  | .malformedInput => "MalformedInput"
  | .oversized => "Oversized"
  | .outOfRange => "OutOfRange"
  | .arithmeticOverflow => "ArithmeticOverflow"
  | .unsupported => "Unsupported"
  | .notFound => "NotFound"
  | .alreadyExists => "AlreadyExists"
  | .unknownAuthority => "UnknownAuthority"
  | .staleGeneration => "StaleGeneration"
  | .staleEpoch => "StaleEpoch"
  | .staleBoot => "StaleBoot"
  | .stalePolicy => "StalePolicy"
  | .staleRateGrant => "StaleRateGrant"
  | .stalePath => "StalePath"
  | .staleResource => "StaleResource"
  | .requiresRevalidation => "RequiresRevalidation"
  | .ceilingExceeded => "CeilingExceeded"
  | .entitlementMint => "EntitlementMint"
  | .floorExceedsCeiling => "FloorExceedsCeiling"
  | .burstExceedsBound => "BurstExceedsBound"
  | .invalidState => "InvalidState"
  | .cancelled => "Cancelled"
  | .revoked => "Revoked"
  | .fenced => "Fenced"
  | .duplicate => "Duplicate"
  | .ambiguous => "Ambiguous"
  | .backendUnavailable => "BackendUnavailable"
  | .backendRejected => "BackendRejected"
  | .backendFailure => "BackendFailure"
  | .readbackUnavailable => "ReadbackUnavailable"
  | .readbackMismatch => "ReadbackMismatch"
  | .integrityFailure => "IntegrityFailure"
  | .resourceExhausted => "ResourceExhausted"
  | .ioFailure => "IoFailure"
  | .internal => "Internal"
  | .clockRegression => "ClockRegression"
  | .unlisted _ _ => "Unknown"

/-- `to_string(CadenceShape)`. -/
def CadenceShape.text : CadenceShape → Bytes
  | .uniform => "uniform"
  | .windowed => "windowed"
  | .tokenBucket => "token-bucket"

/-- `to_string(ApplicationState)`. -/
def ApplicationState.text : ApplicationState → Bytes
  | .unknown => "UNKNOWN"
  | .planned => "PLANNED"
  | .reserved => "RESERVED"
  | .submitted => "SUBMITTED"
  | .acknowledged => "ACKNOWLEDGED"
  | .applied => "APPLIED"
  | .appliedUnverified => "APPLIED_UNVERIFIED"
  | .mismatched => "MISMATCHED"
  | .requiresRevalidation => "REQUIRES_REVALIDATION"
  | .revoked => "REVOKED"
  | .fenced => "FENCED"
  | .stale => "STALE"
  | .failed => "FAILED"
  | .cancelled => "CANCELLED"
  | .ambiguous => "AMBIGUOUS"

/-- `to_string(EffectLabel)`. -/
def EffectLabel.text : EffectLabel → Bytes
  | .none => "NONE"
  | .verified => "VERIFIED"
  | .syntheticVerified => "SYNTHETIC_VERIFIED"
  | .unverified => "UNVERIFIED"
  | .mismatched => "MISMATCHED"

/-- `to_string(EvidenceKind)`. -/
def EvidenceKind.text : EvidenceKind → Bytes
  | .none => "NONE"
  | .backendReadback => "BACKEND_READBACK"
  | .syntheticReadback => "SYNTHETIC_READBACK"
  | .injected => "INJECTED"

/-- `std::to_string` of a `u64`. -/
def decimal (value : UInt64) : Bytes :=
  (Nat.toDigits 10 value.toNat).flatMap String.utf8EncodeChar

/-- `to_string(GenRef)`. -/
def GenRef.text {tag : Tag} (ref : GenRef tag) : Bytes :=
  decimal ref.id.value ++ Bytes.ofString "@" ++ decimal ref.generation.value

def AuthorityVector.digest (v : AuthorityVector) : UInt64 :=
  ({} : Digest64)
    |>.mixU64 v.flow.id.value
    |>.mixU64 v.flow.generation.value
    |>.mixU64 v.resource.id.value
    |>.mixU64 v.resource.generation.value
    |>.mixU64 v.policy.id.value
    |>.mixU64 v.policy.generation.value
    |>.mixU64 v.rateGrant.id.value
    |>.mixU64 v.rateGrant.generation.value
    |>.mixU64 v.path.id.value
    |>.mixU64 v.path.generation.value
    |>.mixU64 v.epoch.value
    |>.mixU64 v.coordinatorBoot.counter
    |>.mixU64 v.coordinatorBoot.nonce
    |>.value

/-- `kHex` at a digit. -/
def hexText (digit : UInt8) : UInt8 :=
  (Bytes.ofString "0123456789abcdef").getD digit.toNat 0

/-- The `switch` of `json_escape`. -/
def escapeByte (ch : UInt8) : Bytes :=
  match ch with
  | 0x22 => "\\\""
  | 0x5C => "\\\\"
  | 0x0A => "\\n"
  | 0x0D => "\\r"
  | 0x09 => "\\t"
  | _ =>
    if ch < 0x20 then
      Bytes.ofString "\\u00" ++ [hexText (ch >>> 4 &&& 0xF), hexText (ch &&& 0xF)]
    else [ch]

/-- The loop of `json_escape`, after `emitted` bytes. -/
def jsonEscapeFrom (limit emitted : Nat) : Bytes → Bytes
  | [] => []
  | ch :: rest =>
    if emitted ≥ limit then "..."
    else escapeByte ch ++ jsonEscapeFrom limit (emitted + 1) rest

def jsonEscape (input : Bytes) (limit : Nat) : Bytes := jsonEscapeFrom limit 0 input

/-- The text built so far, and whether no member was written yet. -/
structure JsonText where
  out : Bytes
  first : Bool := true

namespace JsonText

/-- What the three writers share: the comma, the quoted key and the colon. -/
def put (text : JsonText) (key value : Bytes) : JsonText :=
  { out := (if text.first then text.out else text.out ++ Bytes.ofString ",") ++
      Bytes.ofString "\"" ++ key ++ Bytes.ofString "\":" ++ value
    first := false }

def jsonMember (text : JsonText) (key value : Bytes) : JsonText :=
  text.put key (Bytes.ofString "\"" ++ jsonEscape value 256 ++ Bytes.ofString "\"")

def jsonNumber (text : JsonText) (key : Bytes) (value : UInt64) : JsonText :=
  text.put key (decimal value)

def jsonFlag (text : JsonText) (key : Bytes) (value : Bool) : JsonText :=
  text.put key (if value then "true" else "false")

end JsonText

/-- One call of `json_number`, `json_flag` or `json_member`. -/
inductive JsonCall
  | number (key : Bytes) (value : UInt64)
  | flag (key : Bytes) (value : Bool)
  | member (key : Bytes) (value : Bytes)

def JsonCall.write (text : JsonText) : JsonCall → JsonText
  | .number key value => text.jsonNumber key value
  | .flag key value => text.jsonFlag key value
  | .member key value => text.jsonMember key value

/-- The marker of a shortened explanation. -/
def truncationMarker : Bytes := "\n[truncated: explanation exceeded its configured bound]"

def boundExplanation (text : Bytes) (maxBytes : Nat) : Bytes :=
  if maxBytes == 0 then []
  else if text.length ≤ maxBytes then text
  else if maxBytes ≤ truncationMarker.length then text.take maxBytes
  else text.take (maxBytes - truncationMarker.length) ++ truncationMarker

/-- The section of `to_json` for a grant. -/
def RateGrant.jsonCalls (grant : RateGrant) : List JsonCall :=
  [.number "ceiling_bps" grant.ceilingBps,
   .number "floor_bps" grant.floorBps,
   .number "upstream_revision" grant.revision,
   .flag "authoritative" grant.authoritative]

namespace Explanation

/-- The section of `to_json` for the envelope. -/
def envelopeCalls (e : Explanation) (envelope : PacingEnvelope) : List JsonCall :=
  [.number "envelope_id" envelope.ref.id.value,
   .number "envelope_generation" envelope.ref.generation.value,
   .number "requested_rate_bps" envelope.requestedRateBps,
   .number "authorized_rate_bps" envelope.cadence.rateBps,
   .flag "clamped_to_ceiling" envelope.clampedToCeiling,
   .flag "clamped_to_floor" envelope.clampedToFloor,
   .member "shape" envelope.cadence.shape.text,
   .number "quantum_bytes" envelope.cadence.quantumBytes,
   .number "interval_ns" envelope.cadence.intervalNs,
   .number "window_ns" envelope.cadence.windowNs,
   .number "grants_per_window" envelope.cadence.grantsPerWindow,
   .number "bytes_per_window" envelope.cadence.bytesPerWindow,
   .number "burst_budget_bytes"
     (if e.burstBudgetBytes != 0 then e.burstBudgetBytes else envelope.cadence.burstBytes),
   .number "burst_budget_packets"
     (if e.burstBudgetPackets != 0 then e.burstBudgetPackets else envelope.cadence.burstPackets),
   .flag "upstream_synthetic" envelope.upstreamSynthetic,
   .flag "policy_synthetic" envelope.policySynthetic,
   .number "authority_digest" envelope.authority.digest]

/-- The section of `to_json` for the attempt. -/
def attemptCalls (attempt : ApplicationRecord) : List JsonCall :=
  [.number "attempt_id" attempt.attempt.value,
   .member "state" attempt.state.text,
   .member "last_known_state" attempt.lastKnownState.text,
   .member "effect" attempt.effect.text,
   .member "evidence_kind" attempt.evidenceKind.text,
   .member "backend" attempt.backend.text,
   .flag "backend_synthetic" attempt.backendSynthetic,
   .number "observed_rate_bps" attempt.observedRateBps,
   .number "observed_quantum_bytes" attempt.observedQuantumBytes,
   .number "observed_burst_bytes" attempt.observedBurstBytes,
   .number "backend_seq" attempt.backendSeq,
   .flag "evidence_integrity_ok" attempt.evidenceIntegrityOk,
   .member "reason" attempt.reason.text,
   .flag "requires_revalidation" attempt.requiresRevalidation,
   .number "revision" attempt.revision,
   .member "detail" attempt.detail]

/-- The calls of `to_json`, in order. -/
def jsonCalls (e : Explanation) : List JsonCall :=
  [.number "flow" e.flow.value,
   .number "flow_generation" e.flowGeneration.value,
   .number "resource" e.resource.value,
   .flag "binding_present" e.binding.isSome,
   .flag "envelope_present" e.envelope.isSome,
   .flag "attempt_present" e.attempt.isSome,
   .flag "grant_present" e.grant.isSome,
   .member "refusal" e.refusal.text,
   .member "refusal_detail" e.refusalDetail,
   .member "authority_drift" e.drift.text,
   .member "stale_or_revoke_reason" e.staleOrRevokeReason,
   .member "asserted_effect" e.effect.text] ++
  (e.grant.map RateGrant.jsonCalls).getD [] ++
  (e.envelope.map e.envelopeCalls).getD [] ++
  (e.attempt.map attemptCalls).getD []

/-- The object that `to_json` builds before it bounds it. -/
def jsonObject (e : Explanation) : Bytes :=
  (e.jsonCalls.foldl JsonCall.write { out := "\x7b" }).out ++ Bytes.ofString "\x7d"

def toJson (e : Explanation) (maxBytes : Nat) : Bytes :=
  boundExplanation e.jsonObject maxBytes

end Explanation

end Pacing
