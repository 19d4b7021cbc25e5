import PacingFabric.Model.Operations

/-!
# Explaining a flow

`explain` reads one flow under the lock, asks the rate authority for a grant, fetches the
current authority, and says which effect the coordinator asserts right now.
-/

namespace Pacing

/-- What `explain` reports. An absent value stands for a clear `has_` flag. -/
structure Explanation where
  flow : FlowId := {}
  flowGeneration : Generation := {}
  resource : ResourceId := {}
  binding : Option FlowBinding := none
  envelope : Option PacingEnvelope := none
  attempt : Option ApplicationRecord := none
  grant : Option RateGrant := none
  currentAuthority : AuthorityVector := {}
  drift : AuthorityDrift := .none
  effect : EffectLabel := .none
  refusal : ErrorCode := .ok
  refusalDetail : Bytes := []
  staleOrRevokeReason : Bytes := []
  burstBudgetBytes : UInt64 := 0
  burstBudgetPackets : UInt64 := 0

namespace Fabric

/-- `fetch_authority` without other calls in between: the locked look-up, the rate authority
and the clock, and the locked stamp. -/
def fetchAuthority (f : Fabric) (a : Answers) (flow : FlowId) :
    StatusOr AuthorityInputs × Fabric :=
  let trusted := f.clock.requireTrustworthy
  if !trusted.isOk then (.error trusted, f)
  else
    match f.lookupAuthority flow with
    | .error status => (.error status, f)
    | .ok (binding, policy) =>
      match checkGrant a.grant with
      | .error status => (.error status, f)
      | .ok grant =>
        let f := f.sample a.now
        if grant.expiredAt a.now then
          (.error (.of .staleRateGrant "upstream rate grant has expired"), f)
        else (f.stampAuthority flow binding policy grant, f)

/-- The attempt of an envelope with the highest identity. -/
def newestAttempt (f : Fabric) (envelope : EnvelopeId) : Option ApplicationRecord :=
  (f.attempts.byEnvelope envelope.value).foldl (fun newest id =>
    match f.attempts.record id, newest with
    | none, newest => newest
    | some record, none => some record
    | some record, some prior =>
      if record.attempt.value > prior.attempt.value then some record else some prior) none

/-- The binding of the flow, in the locked section of `explain`. -/
def explainBinding (f : Fabric) (flow : FlowId) : Explanation :=
  match BindingRegistry.get f.bindings flow with
  | .error _ => { flow := flow }
  | .ok binding =>
    { flow := flow
      binding := some binding
      flowGeneration := binding.generation
      resource := binding.resource.id }

/-- The locked section of `explain`: the binding, the latest envelope and its newest
attempt. -/
def explainState (f : Fabric) (flow : FlowId) : Explanation :=
  let out := f.explainBinding flow
  match (f.envelopes.latestByFlow flow.value).bind (f.envelopes.entries[·]?) with
  | none => out
  | some entry =>
    if !entry.live then out
    else
      { out with
        envelope := some entry.envelope
        flowGeneration := entry.envelope.authority.flow.generation
        resource := entry.envelope.resource
        burstBudgetBytes := entry.envelope.cadence.burstBytes
        burstBudgetPackets := entry.envelope.cadence.burstPackets
        staleOrRevokeReason := if entry.revoked then entry.revokeReason else []
        attempt := f.newestAttempt entry.envelope.ref.id }

end Fabric

namespace Explanation

/-- The first call of the rate authority. -/
def withGrant (out : Explanation) (fetched : StatusOr RateGrant) : Explanation :=
  if !out.resource.valid then out
  else
    match fetched with
    | .error _ => out
    | .ok grant => { out with grant := some grant }

/-- What the outcome of `fetch_authority` adds. -/
def withAuthority (out : Explanation) (current : StatusOr AuthorityInputs) : Explanation :=
  match current with
  | .error status => { out with refusal := status.code, refusalDetail := status.detail }
  | .ok inputs =>
    { out with
      currentAuthority := inputs.vector
      drift :=
        match out.envelope, out.attempt with
        | some envelope, _ => compareAuthority envelope.authority inputs.vector
        | none, some attempt => compareAuthority attempt.authority inputs.vector
        | none, none => out.drift }

/-- What the newest attempt adds when no drift was found. -/
def withAttempt (out : Explanation) (attempt : ApplicationRecord) : Explanation :=
  let out :=
    if attempt.requiresRevalidation then
      -- the recorded effect is history, not current fact
      if out.refusal = .ok then
        { out with
          effect := .none
          refusal := .requiresRevalidation
          refusalDetail := "recorded effect is not current until it is revalidated" }
      else { out with effect := .none }
    else { out with effect := attempt.effect }
  if out.refusal = .ok ∧ attempt.reason ≠ .ok ∧ attempt.effect = .none then
    { out with refusal := attempt.reason, refusalDetail := attempt.detail }
  else out

/-- The end of `explain`. -/
def conclude (out : Explanation) : Explanation :=
  if out.drift ≠ .none then
    { out with
      refusal := out.drift.code
      refusalDetail := Fabric.driftDetail out.drift
      staleOrRevokeReason := Fabric.driftDetail out.drift
      effect := .none }
  else
    let out :=
      match out.attempt with
      | some attempt => out.withAttempt attempt
      | none => out
    if out.refusal = .ok then { out with refusalDetail := [] } else out

end Explanation

/-- `explain`, from what its locked section reads in `f`, the grant it is answered, and the
outcome of `fetch_authority`, which other calls may have interleaved with. -/
def Fabric.explain (f : Fabric) (flow : FlowId) (grant : StatusOr RateGrant)
    (current : StatusOr AuthorityInputs) : StatusOr Explanation :=
  if !flow.valid then .error (.of .invalidArgument "flow id is zero")
  else .ok (((f.explainState flow).withGrant grant).withAuthority current).conclude

end Pacing
