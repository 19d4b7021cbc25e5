import PacingFabric.Model.Status
import PacingFabric.Model.Limits

/-!
# Rate, quantum, cadence shape and burst allowance

A cadence is pacing intent: every field is an integer and the interval is a ceiling
division, so that the realized rate never exceeds the requested one.
-/

namespace Pacing

/-- How pacing grants are distributed inside a window. -/
inductive CadenceShape
  | uniform | windowed | tokenBucket
  deriving DecidableEq, Repr

/-- The discriminant of the source's enumeration. -/
def CadenceShape.toByte : CadenceShape → UInt8
  | .uniform => 0
  | .windowed => 1
  | .tokenBucket => 2

/-- Derived, fully specified cadence for one envelope. -/
structure Cadence where
  rateBps : UInt64 := 0
  quantumBytes : UInt64 := 0
  intervalNs : UInt64 := 0
  windowNs : UInt64 := 0
  grantsPerWindow : UInt64 := 0
  bytesPerWindow : UInt64 := 0
  burstBytes : UInt64 := 0
  burstPackets : UInt64 := 0
  shape : CadenceShape := .uniform
  deriving DecidableEq, Repr

def bitsPerByte : UInt64 := 8

/-- Effective steady-state rate implied by a cadence. -/
def Cadence.effectiveRateBps (c : Cadence) : Option UInt64 :=
  if c.windowNs == 0 then none
  else
    match Checked.mul c.bytesPerWindow (bitsPerByte * nanosPerSecond) with
    | none => none
    | some bits => Checked.mulDivFloor bits 1 c.windowNs

/-- Interval for a quantum at a rate, rounded up. -/
def deriveIntervalNs (quantumBytes rateBps : UInt64) : Option UInt64 :=
  if quantumBytes == 0 || rateBps == 0 then none
  else
    match Checked.mul quantumBytes (bitsPerByte * nanosPerSecond) with
    | none => none
    | some numeratorNs =>
      match Checked.mulDivCeil numeratorNs 1 rateBps with
      | none => none
      | some intervalNs => if intervalNs != 0 then some intervalNs else none

/-- Largest burst a rate accumulates over a bounded horizon, rounded down. -/
def burstCapacityBytes (rateBps horizonNs : UInt64) : Option UInt64 :=
  if rateBps == 0 then some 0
  else
    match Checked.mul rateBps horizonNs with
    | none => none
    | some bits => Checked.mulDivFloor bits 1 (bitsPerByte * nanosPerSecond)

/-- Structural well-formedness and bound compliance of a derived cadence. -/
def validateCadence (c : Cadence) (maxRateBps maxBurstBytes maxBurstPackets : UInt64) : Status :=
  if c.rateBps == 0 then .of .outOfRange "cadence rate is zero"
  else if c.rateBps > maxRateBps then .of .outOfRange "cadence rate above limit"
  else if c.quantumBytes == 0 then .of .invalidArgument "cadence quantum is zero"
  else if c.intervalNs == 0 then .of .invalidArgument "cadence interval is zero"
  else if c.windowNs == 0 then .of .invalidArgument "cadence window is zero"
  else if c.burstBytes == 0 then .of .invalidArgument "cadence burst is zero"
  else if c.burstPackets == 0 then .of .invalidArgument "cadence burst packets is zero"
  else if c.burstBytes > maxBurstBytes then
    .of .burstExceedsBound "cadence burst exceeds byte bound"
  else if c.burstPackets > maxBurstPackets then
    .of .burstExceedsBound "cadence burst exceeds packet bound"
  else
    match Checked.mul c.grantsPerWindow c.quantumBytes with
    | none => .of .arithmeticOverflow "cadence window bytes overflow"
    | some bytesPerWindow =>
      if bytesPerWindow != c.bytesPerWindow then
        .of .invalidState "cadence window accounting is inconsistent"
      else
        match c.effectiveRateBps with
        | none => .of .arithmeticOverflow "cadence effective rate overflow"
        | some effective =>
          if effective > c.rateBps then
            .of .ceilingExceeded "cadence effective rate exceeds authorized rate"
          else .success

end Pacing
