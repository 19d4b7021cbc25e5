import Mathlib.Logic.Function.Basic

/-!
# Status, error classification and byte strings

Every operation of the coordinator answers with a code of a closed taxonomy and an
advisory text. The code is what the coordinator branches on; the text is carried
because attempt records and journal payloads store it.

A `std::string` is a sequence of bytes: backends and operators may supply text that is
not valid UTF-8, and every length bound counts bytes.
-/

namespace Pacing

/-- The contents of a `std::string` or of a `std::vector<u8>`. -/
abbrev Bytes := List UInt8

/-- The bytes of a string literal of the source. -/
def Bytes.ofString (text : String) : Bytes := text.toUTF8.data.toList

instance : Coe String Bytes := ⟨Bytes.ofString⟩

/-- Bounded error taxonomy, in the order of the source. The enumeration has a fixed 16-bit
underlying type, so decoded input can hold a value that is not listed. -/
inductive ErrorCode
  | ok
  | invalidArgument | malformedInput | oversized | outOfRange | arithmeticOverflow | unsupported
  | notFound | alreadyExists | unknownAuthority
  | staleGeneration | staleEpoch | staleBoot | stalePolicy | staleRateGrant | stalePath
  | staleResource | requiresRevalidation
  | ceilingExceeded | entitlementMint | floorExceedsCeiling | burstExceedsBound
  | invalidState | cancelled | revoked | fenced | duplicate | ambiguous
  | backendUnavailable | backendRejected | backendFailure | readbackUnavailable
  | readbackMismatch | integrityFailure
  | resourceExhausted | ioFailure | internal | clockRegression
  | unlisted (raw : UInt16) (beyond : 38 ≤ raw.toNat)
  deriving DecidableEq, Repr

namespace ErrorCode

/-- The listed codes, in the order of their discriminants. -/
def listed : List ErrorCode :=
  [.ok, .invalidArgument, .malformedInput, .oversized, .outOfRange, .arithmeticOverflow,
   .unsupported, .notFound, .alreadyExists, .unknownAuthority, .staleGeneration, .staleEpoch,
   .staleBoot, .stalePolicy, .staleRateGrant, .stalePath, .staleResource,
   .requiresRevalidation, .ceilingExceeded, .entitlementMint, .floorExceedsCeiling,
   .burstExceedsBound, .invalidState, .cancelled, .revoked, .fenced, .duplicate, .ambiguous,
   .backendUnavailable, .backendRejected, .backendFailure, .readbackUnavailable,
   .readbackMismatch, .integrityFailure, .resourceExhausted, .ioFailure, .internal,
   .clockRegression]

def toU16 : ErrorCode → UInt16
  | .unlisted raw _ => raw
  | code => UInt16.ofNat (listed.idxOf code)

/-- `static_cast<ErrorCode>`: every 16-bit value is a value of the enumeration. -/
def ofU16 (raw : UInt16) : ErrorCode :=
  if h : 38 ≤ raw.toNat then .unlisted raw h
  else listed.getD raw.toNat .ok

end ErrorCode

/-- A code and its advisory text. -/
structure Status where
  code : ErrorCode := .ok
  detail : Bytes := []
  deriving DecidableEq, Repr

namespace Status

def success : Status := {}

/-- `Status::of`. -/
def of (code : ErrorCode) (detail : Bytes) : Status := ⟨code, detail⟩

def isOk (s : Status) : Bool := s.code == .ok

@[simp] theorem isOk_success : success.isOk = true := rfl

end Status

/-- `Result<T>`: a value or a non-Ok status. -/
abbrev StatusOr (α : Type) := Except Status α

end Pacing
