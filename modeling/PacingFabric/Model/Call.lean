import PacingFabric.Model.Operations

/-!
# Public operations as sequences of atomic steps

A call in progress is the point it has reached together with the locals it will still
read. One step is one locked section, one sample of the clock or one external call; the
steps of different calls interleave freely. `Call.external` names the call a step makes
outside the coordinator, whose answer is part of the step's `Answers`.
-/

namespace Pacing

/-- A call of the public interface that changes state. -/
inductive Request
  | currentTick
  | advanceEpoch
  | bindFlow (binding : FlowBinding)
  | unbindFlow (flow : FlowId)
  | registerBackend (backend : Option BackendPtr)
  | unregisterBackend (id : BackendId)
  | publishPolicy (policy : PacingPolicy)
  | removePolicy (id : PolicyId)
  | deriveEnvelope (flow : FlowId)
  | applyEnvelope (envelope : EnvelopeRef) (backend : BackendId) (requested : AttemptId)
  | verifyAttempt (id : AttemptId)
  | cancelAttempt (id : AttemptId) (reason : Bytes)
  | revokeEnvelope (envelope : EnvelopeRef) (reason : Bytes)
  | fenceBelow (epoch : Epoch)
  | revalidate (id : AttemptId)
  | shutdown

namespace Request

/-- The operations that begin with `require_trustworthy_clock`. -/
def needsTrust : Request → Bool
  | .deriveEnvelope _ | .applyEnvelope .. | .verifyAttempt _ | .revalidate _ => true
  | _ => false

/-- A non-Ok status in the return type of the operation. -/
def refusal (status : Status) : Request → Reply
  | .deriveEnvelope _ => .envelope (.error status)
  | .applyEnvelope .. => .attempt (.error status)
  | .publishPolicy _ => .policy (.error status)
  | _ => .status status

end Request

/-- The locals of `apply_envelope` between phases A and C. -/
structure Applying where
  now : Instant
  ref : EnvelopeRef
  backendId : BackendId
  requested : AttemptId
  envelope : PacingEnvelope
  backend : BackendPtr

/-- The locals of `apply_envelope` once its attempt is reserved. -/
structure Installing where
  now : Instant
  envelope : PacingEnvelope
  backend : BackendPtr
  request : ApplyRequest

/-- The two operations that look at an existing attempt again. -/
inductive CheckKind
  | verify | revalidate
  deriving DecidableEq, Repr

/-- The locals of `verify_attempt` and `revalidate` after their first section. -/
structure Check where
  kind : CheckKind
  id : AttemptId
  now : Instant
  record : ApplicationRecord
  envelope : PacingEnvelope
  backend : Option BackendPtr

/-- Where `fetch_authority` returns to. -/
inductive Caller
  | derive (now : Instant)
  | applyBefore (apply : Applying)
  | applyUnverified (install : Installing)
  | applyAfter (install : Installing) (status : Status) (evidence : ReadbackEvidence)
  | check (check : Check)

/-- Where `fetch_authority` stands. -/
inductive Fetch
  | trust
  | lookup
  | grant (binding : FlowBinding) (policy : PacingPolicy)
  | sample (binding : FlowBinding) (policy : PacingPolicy) (grant : RateGrant)
  | stamp (binding : FlowBinding) (policy : PacingPolicy) (grant : RateGrant)

/-- A call in progress, by the step it takes next. -/
inductive Call
  | enter (request : Request)
  | trust (request : Request)
  | sample (request : Request)
  | locked (request : Request) (now : Instant)
  | describe (now : Instant) (backend : BackendPtr)
  | register (now : Instant) (backend : BackendPtr) (desc : BackendDescriptor)
  | fetch (caller : Caller) (flow : FlowId) (phase : Fetch)
  | derive (inputs : AuthorityInputs) (now : Instant)
  | reserve (apply : Applying)
  | install (install : Installing)
  | acknowledge (install : Installing) (status : Status) (ack : ApplyAck)
  | describeReadback (install : Installing)
  | readback (install : Installing)
  | commitUnverified (install : Installing) (current : StatusOr AuthorityInputs)
  | commitVerified (install : Installing) (status : Status) (evidence : ReadbackEvidence)
      (current : StatusOr AuthorityInputs)
  | staleCheck (check : Check) (drift : AuthorityDrift)
  | readbackCheck (check : Check) (backend : BackendPtr) (current : AuthorityInputs)
  | noEvidence (check : Check)
  | finalizeCheck (check : Check) (status : Status) (evidence : ReadbackEvidence)
      (current : AuthorityInputs)
  | report (check : Check)
  | withdraw (todo : List Withdrawal) (reason : Bytes) (reply : Reply)
  | rebind (todo : List BackendPtr) (epoch : Epoch) (reply : Reply)
  | leave (reply : Reply)
  | stop
  | drain
  | detach
  | clear

/-- A call made outside the coordinator. -/
inductive External
  | describe (backend : BackendPtr)
  | apply (backend : BackendPtr) (request : ApplyRequest)
  | readback (backend : BackendPtr) (request : ApplyRequest)
  | revoke (backend : BackendPtr) (request : ApplyRequest) (reason : Bytes)
  | rebindEpoch (backend : BackendPtr) (epoch : Epoch)
  | fetch (resource : ResourceId)

/-- The request `verify_attempt` and `revalidate` read back with. -/
def Check.request (c : Check) : ApplyRequest where
  attempt := c.id
  envelope := c.record.envelope
  flow := c.record.flow
  authority := c.record.authority
  cadence := c.envelope.cadence
  worker := c.record.worker
  issuedAtNs := c.now.ns
  deadlineNs := c.envelope.validUntil.nsOrZero

/-- The drift `apply_envelope` acts on after its re-check, and the code it reports. -/
def driftAfter (held : AuthorityVector) (current : StatusOr AuthorityInputs) :
    AuthorityDrift × ErrorCode :=
  match current with
  | .ok inputs => (compareAuthority held inputs.vector, (compareAuthority held inputs.vector).code)
  | .error status => (.incomplete, status.code)

namespace Call

def begin : Request → Call
  | .currentTick => .sample .currentTick
  | .shutdown => .stop
  | request => .enter request

/-- Withdrawals are issued one at a time before the call leaves. -/
def withdrawing (todo : List Withdrawal) (reason : Bytes) (reply : Reply) : Call :=
  if todo.isEmpty then .leave reply else .withdraw todo reason reply

def rebinding (todo : List BackendPtr) (epoch : Epoch) (reply : Reply) : Call :=
  if todo.isEmpty then .leave reply else .rebind todo epoch reply

/-- What follows the return of `fetch_authority`. -/
def resume (current : StatusOr AuthorityInputs) : Caller → Call
  | .derive now =>
    match current with
    | .error status => .leave (.envelope (.error status))
    | .ok inputs => .derive inputs now
  | .applyBefore p =>
    match current with
    | .error status => .leave (.attempt (.error status))
    | .ok inputs =>
      let drift := compareAuthority p.envelope.authority inputs.vector
      if drift ≠ .none then
        .leave (.attempt (.error
          (.of drift.code "authority drifted since the envelope was derived")))
      else .reserve p
  | .applyUnverified i => .commitUnverified i current
  | .applyAfter i status evidence => .commitVerified i status evidence current
  | .check c =>
    match current with
    | .error status => .leave (.status status)
    | .ok inputs =>
      let drift := compareAuthority c.record.authority inputs.vector
      if drift ≠ .none then .staleCheck c drift
      else
        match c.backend with
        | some backend => .readbackCheck c backend inputs
        | none => .leave (.status (.of .backendUnavailable
            "backend is not registered; pacing must be re-applied against a live backend"))

/-- One step inside `fetch_authority`. -/
def fetchStep (f : Fabric) (a : Answers) (caller : Caller) (flow : FlowId) :
    Fetch → Fabric × Call
  | .trust =>
    let trusted := f.clock.requireTrustworthy
    (f, if trusted.isOk then .fetch caller flow .lookup else resume (.error trusted) caller)
  | .lookup =>
    match f.lookupAuthority flow with
    | .error status => (f, resume (.error status) caller)
    | .ok (binding, policy) => (f, .fetch caller flow (.grant binding policy))
  | .grant binding policy =>
    match Fabric.checkGrant a.grant with
    | .error status => (f, resume (.error status) caller)
    | .ok grant => (f, .fetch caller flow (.sample binding policy grant))
  | .sample binding policy grant =>
    (f.sample a.now,
      if grant.expiredAt a.now then
        resume (.error (.of .staleRateGrant "upstream rate grant has expired")) caller
      else .fetch caller flow (.stamp binding policy grant))
  | .stamp binding policy grant =>
    (f, resume (f.stampAuthority flow binding policy grant) caller)

/-- The argument checks that follow the clock sample, and the first locked section. -/
def lockedStep (f : Fabric) (a : Answers) (now : Instant) (request : Request) :
    Fabric × Option Call :=
  let refuse := fun status => (f, some (Call.leave (request.refusal status)))
  let reply := fun (result : Status × Fabric) => (result.2, some (Call.leave (.status result.1)))
  match request with
  | .currentTick => (f, none)
  | .advanceEpoch =>
    match f.advanceEpoch a now with
    | (.error status, f) => (f, some (.leave (.status status)))
    | (.ok (epoch, backends), f) => (f, some (rebinding backends epoch (.status .success)))
  | .bindFlow binding => reply (f.bindFlow a now binding)
  | .unbindFlow flow => reply (f.unbindFlow a now flow)
  | .registerBackend backend =>
    match backend with
    | none => refuse (.of .invalidArgument "backend handle is null")
    | some backend => (f, some (.describe now backend))
  | .unregisterBackend id => reply (f.unregisterBackend id)
  | .publishPolicy policy =>
    let (published, f) := f.publishPolicy a now policy
    (f, some (.leave (.policy published)))
  | .removePolicy id => reply (f.removePolicy a now id)
  | .deriveEnvelope flow => (f, some (.fetch (.derive now) flow .trust))
  | .applyEnvelope ref backendId requested =>
    if !ref.known then
      refuse (.of .invalidArgument "envelope reference is not generation-bound")
    else if !backendId.valid then refuse (.of .invalidArgument "backend id is zero")
    else
      match f.resolveApply now ref backendId with
      | .error status => refuse status
      | .ok (envelope, backend) =>
        (f, some (.fetch (.applyBefore ⟨now, ref, backendId, requested, envelope, backend⟩)
          envelope.flow .trust))
  | .verifyAttempt id =>
    match f.openVerify id with
    | .error status => refuse status
    | .ok (record, envelope, backend) =>
      (f, some (.fetch (.check ⟨.verify, id, now, record, envelope, some backend⟩)
        record.flow .trust))
  | .cancelAttempt id reason =>
    if reason.length > f.config.limits.maxExplanationBytes.toNat then
      refuse (.of .oversized "cancellation reason above configured bound")
    else
      let (status, todo, f) := f.cancelAttempt a now id reason
      (f, some (withdrawing todo reason (.status status)))
  | .revokeEnvelope ref reason =>
    if !ref.id.valid then refuse (.of .invalidArgument "envelope id is zero")
    else if reason.length > f.config.limits.maxExplanationBytes.toNat then
      refuse (.of .oversized "revocation reason above configured bound")
    else
      let (status, todo, f) := f.revokeEnvelope a now ref reason
      (f, some (withdrawing todo reason (.status status)))
  | .fenceBelow epoch =>
    if !epoch.valid then refuse (.of .invalidArgument "fence epoch is not valid")
    else
      let (status, todo, f) := f.fenceBelow a now epoch
      (f, some (withdrawing todo "fenced by coordinator epoch" (.status status)))
  | .revalidate id =>
    match f.openRevalidate id with
    | .error status => refuse status
    | .ok (record, envelope, backend) =>
      (f, some (.fetch (.check ⟨.revalidate, id, now, record, envelope, backend⟩)
        record.flow .trust))
  | .shutdown => (f, none)

/-- One step of a call: the new state, and where the call stands, or `none` when it has
returned. -/
def step (f : Fabric) (a : Answers) : Call → Fabric × Option Call
  | .enter request =>
    let f := { f with activeOperations := f.activeOperations + 1 }
    match request with
    | .unregisterBackend _ => (f, some (.locked request {}))
    | _ => (f, some (if request.needsTrust then .trust request else .sample request))
  | .trust request =>
    let trusted := f.clock.requireTrustworthy
    (f, some (if trusted.isOk then .sample request else .leave (request.refusal trusted)))
  | .sample request => (f.sample a.now, some (.locked request a.now))
  | .locked request now => lockedStep f a now request
  | .describe now backend =>
    let desc := a.describe backend
    let valid := Fabric.checkDescriptor f.config.limits desc
    (f, some (if valid.isOk then .register now backend desc else .leave (.status valid)))
  | .register now backend desc =>
    let (status, f) := f.registerBackend a now backend desc
    (f, some (.leave (.status status)))
  | .fetch caller flow phase =>
    let (f, call) := fetchStep f a caller flow phase
    (f, some call)
  | .derive inputs now =>
    let (derived, f) := f.deriveEnvelope a inputs now
    (f, some (.leave (.envelope derived)))
  | .reserve p =>
    match f.reserveAttempt a p.now p.ref p.backendId p.requested p.envelope p.backend with
    | (.refused status, f) => (f, some (.leave (.attempt (.error status))))
    | (.duplicate attempt, f) => (f, some (.leave (.attempt (.ok attempt))))
    | (.reserved request, f) =>
      (f, some (.install ⟨p.now, p.envelope, p.backend, request⟩))
  | .install i => (f, some (.acknowledge i a.status a.ack))
  | .acknowledge i status ack =>
    match f.acknowledgeAttempt a i.now i.request.attempt status ack with
    | (.vanished, f) =>
      (f, some (.leave (.attempt (.error (.of .internal "attempt vanished during apply")))))
    | (.closedEarly code, f) =>
      (f, some (.withdraw [(i.backend, i.request)] "late backend completion discarded"
        (.attempt (.error (.of code
          "attempt was closed before the backend completed; completion discarded")))))
    | (.ended, f) => (f, some (.leave (.attempt (.ok i.request.attempt))))
    | (.acknowledged, f) => (f, some (.describeReadback i))
  | .describeReadback i =>
    (f, some (if (a.describe i.backend).supportsReadback then .readback i
      else .fetch (.applyUnverified i) i.envelope.flow .trust))
  | .readback i =>
    (f, some (.fetch (.applyAfter i a.status a.evidence) i.envelope.flow .trust))
  | .commitUnverified i current =>
    let (drift, code) := driftAfter i.envelope.authority current
    let (after, f) := f.commitUnverified a i.now i.request.attempt drift code
    (f, some (match after.withdraw with
      | some reason => .withdraw [(i.backend, i.request)] reason after.reply
      | none => .leave after.reply))
  | .commitVerified i status evidence current =>
    let (drift, code) := driftAfter i.envelope.authority current
    let (after, f) := f.commitVerified a i.now i.request.attempt i.envelope status evidence
      drift code
    (f, some (match after.withdraw with
      | some reason => .withdraw [(i.backend, i.request)] reason after.reply
      | none => .leave after.reply))
  | .staleCheck c drift =>
    match c.kind with
    | .verify =>
      (f.staleVerify a c.now c.id drift,
        some (.leave (.status (.of drift.code "authority drifted; attempt is stale"))))
    | .revalidate =>
      (f.staleRevalidate a c.now c.id drift,
        some (.leave (.status (.of drift.code
          "authority drifted; the recorded effect is not current"))))
  | .readbackCheck c _ current =>
    (f, some (if c.kind = .revalidate ∧ !a.evidence.trusted a.status then .noEvidence c
      else .finalizeCheck c a.status a.evidence current))
  | .noEvidence c =>
    (f.noEvidence a c.now c.id, some (.leave (.status (.of .requiresRevalidation
      "no positive backend evidence; pacing must be re-applied"))))
  | .finalizeCheck c status evidence _ =>
    match c.kind with
    | .verify =>
      let (result, f) := f.finalizeVerify a c.now c.id c.envelope status evidence
      (f, some (.leave (.status result)))
    | .revalidate =>
      let (result, f) := f.finalizeRevalidate a c.now c.id c.envelope evidence
      (f, some (if result.isOk then .report c else .leave (.status result)))
  | .report c => (f, some (.leave (.status (f.reportRevalidate c.id))))
  | .withdraw todo reason reply => (f, some (withdrawing todo.tail reason reply))
  | .rebind todo epoch reply => (f, some (rebinding todo.tail epoch reply))
  | .leave _ => ({ f with activeOperations := f.activeOperations - 1 }, none)
  | .stop =>
    if !f.initialized then (f, none)
    else
      ({ f with running := false },
        some (if f.activeOperations = 0 then .detach else .drain))
  | .drain => (f, some (if f.activeOperations = 0 then .detach else .drain))
  | .detach =>
    ({ f with initialized := false, storage := { f.storage with durable := none } }, some .clear)
  | .clear => ({ f with backends := [] }, none)

/-- The external call the next step makes, if any. -/
def external : Call → Option External
  | .describe _ backend => some (.describe backend)
  | .fetch _ _ (.grant binding _) => some (.fetch binding.resource.id)
  | .install i => some (.apply i.backend i.request)
  | .describeReadback i => some (.describe i.backend)
  | .readback i => some (.readback i.backend i.request)
  | .readbackCheck c backend _ => some (.readback backend c.request)
  | .withdraw ((backend, request) :: _) reason _ => some (.revoke backend request reason)
  | .rebind (backend :: _) epoch _ => some (.rebindEpoch backend epoch)
  | _ => none

end Call

end Pacing
