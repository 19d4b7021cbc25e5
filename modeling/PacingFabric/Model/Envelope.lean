import PacingFabric.Model.Rate
import PacingFabric.Model.Time

/-!
# The pacing envelope and its derivation

An envelope is intent plus the authority that justified it. `deriveCadence` is the pure
derivation: it refuses rather than approximates, clamps a request to the ceiling, and
re-checks the realized rate of what it assembled.
-/

namespace Pacing

/-- Chain of derivation inputs, as digests of the exact evidence. -/
structure Provenance where
  id : ProvenanceId := {}
  sequence : UInt64 := 0
  fabricInstance : UInt64 := 0
  bindingDigest : UInt64 := 0
  policyDigest : UInt64 := 0
  grantDigest : UInt64 := 0
  cadenceDigest : UInt64 := 0
  deriving DecidableEq, Repr

structure PacingEnvelope where
  ref : EnvelopeRef := {}
  flow : FlowId := {}
  resource : ResourceId := {}
  authority : AuthorityVector := {}
  cadence : Cadence := {}
  requestedRateBps : UInt64 := 0
  ceilingBps : UInt64 := 0
  floorBps : UInt64 := 0
  clampedToCeiling : Bool := false
  clampedToFloor : Bool := false
  serviceClass : ServiceClassId := {}
  provenance : Provenance := {}
  derivedAt : Instant := {}
  validUntil : Deadline := {}
  upstreamSynthetic : Bool := false
  policySynthetic : Bool := false
  deriving DecidableEq, Repr

def PacingEnvelope.expiredAt (e : PacingEnvelope) (now : Instant) : Bool :=
  e.validUntil.expiredAt now

structure DerivationInput where
  requestedRateBps : UInt64 := 0
  rateSharePpm : UInt64 := 1000000
  minRateBps : UInt64 := 0
  ceilingBps : UInt64 := 0
  floorBps : UInt64 := 0
  quantumBytes : UInt64 := 0
  windowNs : UInt64 := 0
  burstBytes : UInt64 := 0
  burstPackets : UInt64 := 0
  flowMaxBurstBytes : UInt64 := 0
  flowMaxBurstPackets : UInt64 := 0
  shape : CadenceShape := .uniform
  grantsPerWindowHint : UInt64 := 0
  deriving DecidableEq, Repr

structure DerivationOutcome where
  cadence : Cadence := {}
  requestedRateBps : UInt64 := 0
  clampedToCeiling : Bool := false
  clampedToFloor : Bool := false
  deriving DecidableEq, Repr

namespace DerivationInput

/-- Step 1 of `derive_cadence`: bound and shape validation. -/
def check (input : DerivationInput) (limits : Limits) : Status :=
  if input.ceilingBps == 0 then
    .of .unknownAuthority "upstream ceiling is absent or zero"
  else if input.ceilingBps > limits.maxRateBps then
    .of .outOfRange "upstream ceiling above configured limit"
  else if input.floorBps > input.ceilingBps then
    .of .floorExceedsCeiling "upstream floor exceeds upstream ceiling"
  else if input.minRateBps > input.ceilingBps then
    .of .entitlementMint
      "policy floor exceeds upstream ceiling; pacing cannot mint entitlement"
  else if input.minRateBps > limits.maxRateBps then
    .of .outOfRange "policy floor above configured limit"
  else if input.requestedRateBps > limits.maxRateBps then
    .of .outOfRange "requested rate above configured limit"
  else if input.rateSharePpm > 1000000 then
    .of .outOfRange "rate share exceeds 1000000 ppm"
  else if input.quantumBytes == 0 || decide (input.quantumBytes > limits.maxQuantumBytes) then
    .of .outOfRange "quantum out of range"
  else if decide (input.windowNs < limits.minWindowNs) ||
      decide (input.windowNs > limits.maxWindowNs) then
    .of .outOfRange "window out of range"
  else if input.burstBytes > limits.maxBurstBytes then
    .of .burstExceedsBound "requested burst bytes above bound"
  else if input.burstPackets > limits.maxBurstPackets then
    .of .burstExceedsBound "requested burst packets above bound"
  else if input.flowMaxBurstBytes > limits.maxBurstBytes then
    .of .burstExceedsBound "flow burst byte bound above limit"
  else if input.flowMaxBurstPackets > limits.maxBurstPackets then
    .of .burstExceedsBound "flow burst packet bound above limit"
  else if input.grantsPerWindowHint > nanosPerSecond then
    .of .outOfRange "grants-per-window hint above bound"
  else .success

/-- The target rate before clamping. -/
def target (input : DerivationInput) : Option UInt64 :=
  if input.requestedRateBps != 0 then some input.requestedRateBps
  else Checked.ppmOf input.ceilingBps input.rateSharePpm

/-- Step 2: the target rate with the two clamp flags. -/
def clampedTarget (input : DerivationInput) (target : UInt64) : UInt64 × Bool × Bool :=
  let toCeiling := decide (target > input.ceilingBps)
  let target := if toCeiling then input.ceilingBps else target
  let lower := max input.floorBps input.minRateBps
  let toFloor := decide (target < lower)
  (if toFloor then lower else target, toCeiling, toFloor)

/-- Step 3: the interval, made sparser by a windowed hint. -/
def interval (input : DerivationInput) (target : UInt64) (limits : Limits) : StatusOr UInt64 :=
  match deriveIntervalNs input.quantumBytes target with
  | none => .error (.of .arithmeticOverflow "interval derivation overflowed")
  | some intervalNs => do
    let intervalNs ←
      if input.shape == .windowed && input.grantsPerWindowHint != 0 then
        match Checked.mulDivCeil input.windowNs 1 input.grantsPerWindowHint with
        | none => .error (.of .arithmeticOverflow "windowed interval derivation overflowed")
        | some hinted => pure (if hinted > intervalNs then hinted else intervalNs)
      else pure intervalNs
    if intervalNs == 0 then
      .error (.of .internal "derived interval collapsed to zero")
    else if intervalNs > limits.maxIntervalNs then
      .error (.of .outOfRange "derived interval above configured limit")
    else pure intervalNs

/-- A flow-declared bound against the policy allowance, in one dimension. -/
def tightened (allowance flowMax : UInt64) : UInt64 :=
  if flowMax != 0 && (allowance == 0 || decide (flowMax < allowance)) then flowMax else allowance

/-- Step 5: the burst allowance in bytes and packets. -/
def burst (input : DerivationInput) (target : UInt64) (limits : Limits) :
    StatusOr (UInt64 × UInt64) :=
  let burstBytes := tightened input.burstBytes input.flowMaxBurstBytes
  let burstPackets := tightened input.burstPackets input.flowMaxBurstPackets
  let burstBytes := if burstBytes == 0 then input.quantumBytes else burstBytes
  let burstPackets := if burstPackets == 0 then 1 else burstPackets
  if burstBytes < input.quantumBytes then
    .error (.of .invalidArgument "burst allowance is smaller than one quantum")
  else if burstBytes > limits.maxBurstBytes then
    .error (.of .burstExceedsBound "derived burst bytes above bound")
  else if burstPackets > limits.maxBurstPackets then
    .error (.of .burstExceedsBound "derived burst packets above bound")
  else if input.shape == .tokenBucket then
    match burstCapacityBytes target limits.maxBurstHorizonNs with
    | none => .error (.of .arithmeticOverflow "burst capacity derivation overflowed")
    | some capacity =>
      if burstBytes > capacity then
        .error (.of .burstExceedsBound
          "token bucket depth exceeds the capacity implied by the authorized rate")
      else .ok (burstBytes, burstPackets)
  else .ok (burstBytes, burstPackets)

/-- Step 6: re-validation of the assembled cadence against the limits and the ceiling. -/
def recheck (input : DerivationInput) (cadence : Cadence) (limits : Limits) : Status :=
  let check := validateCadence cadence limits.maxRateBps limits.maxBurstBytes
    limits.maxBurstPackets
  if !check.isOk then check
  else
    match cadence.effectiveRateBps with
    | none => .of .arithmeticOverflow "effective rate computation overflowed"
    | some effective =>
      if effective > input.ceilingBps then
        .of .ceilingExceeded "realized cadence would exceed the upstream authorized ceiling"
      else .success

end DerivationInput

def deriveCadence (input : DerivationInput) (limits : Limits) : StatusOr DerivationOutcome :=
  let valid := input.check limits
  if !valid.isOk then .error valid
  else
    match input.target with
    | none => .error (.of .arithmeticOverflow "rate share computation overflowed")
    | some requested =>
      let (target, toCeiling, toFloor) := input.clampedTarget requested
      if target == 0 then
        .error (.of .outOfRange "derived pacing rate is zero; nothing is authorized")
      else if target > limits.maxRateBps then
        .error (.of .outOfRange "derived rate above configured limit")
      else do
        let intervalNs ← input.interval target limits
        let grantsPerWindow := input.windowNs / intervalNs
        match Checked.mul grantsPerWindow input.quantumBytes with
        | none => .error (.of .arithmeticOverflow "window byte accounting overflowed")
        | some bytesPerWindow => do
          let (burstBytes, burstPackets) ← input.burst target limits
          let cadence : Cadence := {
            rateBps := target
            quantumBytes := input.quantumBytes
            intervalNs := intervalNs
            windowNs := input.windowNs
            grantsPerWindow := grantsPerWindow
            bytesPerWindow := bytesPerWindow
            burstBytes := burstBytes
            burstPackets := burstPackets
            shape := input.shape }
          let check := input.recheck cadence limits
          if !check.isOk then .error check
          else pure {
            cadence := cadence
            requestedRateBps := input.requestedRateBps
            clampedToCeiling := toCeiling
            clampedToFloor := toFloor }

end Pacing
