import PacingFabric.Theorems.Moves
import PacingFabric.Theorems.RoundTrip
import PacingFabric.Theorems.Derivation
import Mathlib.Logic.Relation

/-!
# What a step changes and journals

`Change` lists the durable changes of the coordinator one by one, each with the record the
journal is told: a ledger write with its attempt record, a new attempt, a record that comes
with no change of bindings, policies or attempts. Every step of a call is a chain of such
changes or one operation on a registry, as long as what it writes fits the bounds its
readers apply. Properties of the files are proved one change at a time.

## Main definitions

* `Change`, `Changes`: one change, and a chain of them.
* `Call.Fits`: what a step is about to write is within the bounds of the decoders.
* `Call.Knows`: what a call has checked about the data it carries.

## Main results

* `Call.step_changes`: every step that leaves both registries alone is a chain of changes.
* `Call.registry_cases`: the four steps that do not.
* `Call.step_knows`: a step establishes what the call knows at its next point.
-/

namespace Pacing

/-! ### Texts and identities -/

/-- A counter that has room does not wrap. -/
theorem add_one_ne_zero {c : UInt64} (h : c ≠ Checked.u64Max) : c + 1 ≠ 0 := by
  intro hzero
  have hlt := UInt64.lt_add_one h
  rw [hzero] at hlt
  exact absurd hlt (UInt64.not_lt.2 (UInt64.zero_le ..))

theorem Epoch.valid_advanced {e : Epoch} (h : e.advanced.2 = false) :
    e.advanced.1.valid = true := by
  unfold advanced at h ⊢
  split at h
  · cases h
  · rename_i hmax
    rw [if_neg hmax]
    exact bne_iff_ne.2 (add_one_ne_zero (by simpa using hmax))

theorem Generation.known_next {g : Generation} (h : g.next.2 = false) : g.next.1.known = true := by
  unfold next at h ⊢
  split at h
  · cases h
  · rename_i hmax
    rw [if_neg hmax]
    exact bne_iff_ne.2 (add_one_ne_zero (by simpa using hmax))

/-- The longest text the coordinator itself writes into a record. -/
def ownTextBytes : ℕ := 63

/-- A live entry whose envelope and revocation the decoders accept. -/
def EnvelopeEntry.Legible (e : EnvelopeEntry) : Prop :=
  e.live = true → e.envelope.Legible ∧
    (e.revoked = true → e.revokeReason.length ≤ revocationReasonBytes)

/-- What an attempt was asked for, the flow and the resource included. -/
structure ApplicationRecord.SameRequest (r r' : ApplicationRecord) : Prop where
  work : r.SameWork r'
  flow : r'.flow = r.flow
  resource : r'.resource = r.resource

theorem ApplicationRecord.transition_detail (r : ApplicationRecord) (next : ApplicationState)
    (now : Instant) (reason : ErrorCode) (detail : Bytes) :
    (r.transition next now reason detail).detail = detail := rfl

theorem ApplicationRecord.transition_sameRequest (r : ApplicationRecord)
    (next : ApplicationState) (now : Instant) (reason : ErrorCode) (detail : Bytes) :
    r.SameRequest (r.transition next now reason detail) :=
  ⟨⟨rfl, rfl, rfl, rfl, rfl, rfl⟩, rfl, rfl⟩

theorem ApplicationRecord.finalizeEvidence_sameRequest (r : ApplicationRecord)
    (cadence : Cadence) (evidence : ReadbackEvidence) (readbackOk : Bool) (code : ErrorCode)
    (now : Instant) :
    r.SameRequest (r.finalizeEvidence cadence evidence readbackOk code now) := by
  refine ⟨r.finalizeEvidence_sameWork .., ?_, ?_⟩
  all_goals
    unfold finalizeEvidence
    dsimp only
    split_ifs <;> rfl

theorem ApplicationRecord.finalizeEvidence_detail (r : ApplicationRecord)
    (cadence : Cadence) (evidence : ReadbackEvidence) (readbackOk : Bool) (code : ErrorCode)
    (now : Instant) :
    (r.finalizeEvidence cadence evidence readbackOk code now).detail.length ≤ ownTextBytes := by
  unfold finalizeEvidence
  dsimp only
  split_ifs <;> simp only [transition_detail] <;> decide +kernel

theorem driftDetail_length (drift : AuthorityDrift) :
    (Fabric.driftDetail drift).length ≤ ownTextBytes := by
  cases drift <;> decide +kernel

/-! ### Changes -/

/-- `f'` differs from `f` at most in what is neither journaled nor compacted; the pending
counter of the ledger is recomputed at each start. -/
structure Fabric.SameDurable (f f' : Fabric) : Prop where
  config : f'.config = f.config
  running : f'.running = true → f.running = true
  epoch : f'.epoch = f.epoch
  bindings : f'.bindings = f.bindings
  policies : f'.policies = f.policies
  envelopes : f'.envelopes = f.envelopes
  attempts : f'.attempts = { f.attempts with pending := f'.attempts.pending }
  storage : f'.storage = f.storage

/-- The records that replay into neither a registry nor the ledger. -/
def DurableRecordType.inert : DurableRecordType → Bool
  | .envelope | .envelopeRevocation | .epochAdvance | .backendRegistration => true
  | _ => false

/-- The decoder of its type accepts the payload of a record. -/
def DurableRecord.legible (limits : Limits) (record : DurableRecord) : Bool :=
  match record.type with
  | .flowBinding => (decodePayload (decodeBinding limits) record.payload).isSome
  | .policy => (decodePayload (decodePolicy limits) record.payload).isSome
  | .envelope => (decodePayload decodeEnvelope record.payload).isSome
  | .attempt => (decodePayload (decodeAttempt limits) record.payload).isSome
  | .envelopeRevocation => (decodePayload decodeRevocation record.payload).isSome
  | .epochAdvance => (decodePayload decodeEpoch record.payload).isSome
  | .backendRegistration =>
    (decodePayload (decodeBackendDescriptor limits) record.payload).isSome
  | .flowUnbound | .policyRemoved => (decodePayload decodeIdentityU64 record.payload).isSome
  | .metaRecord | .unlisted .. => false

/-- A checkpoint of this step finds the descriptor of `backend` as `register_backend` asks. -/
def Answers.describes (limits : Limits) (a : Answers) (backend : BackendPtr) : Bool :=
  (Fabric.checkDescriptor limits (a.checkpointDescribe backend)).isOk

/-- One change of the durable part of the coordinator, with its journal record. -/
inductive Change (limits : Limits) (a : Answers) : Fabric → Fabric → Prop
  | quiet {f f'} (same : f.SameDurable f') (backends : ∀ b ∈ f'.backends,
      b ∈ f.backends ∨ a.describes limits b.2 = true) : Change limits a f f'
  | detach {f} (stopped : f.running = false) :
      Change limits a f { f with
        initialized := false, storage := { f.storage with durable := none } }
  | epoch {f} (epoch : Epoch) (valid : epoch.valid = true) :
      Change limits a f { f with epoch := epoch }
  | envelopes {f} (t : EnvelopeTable)
      (legible : (∀ e ∈ f.envelopes.entries, e.Legible) → ∀ e ∈ t.entries, e.Legible) :
      Change limits a f { f with envelopes := t }
  | inert {f} (type : DurableRecordType) (payload : Bytes) (ts : UInt64)
      (inert : type.inert = true)
      (legible : ∀ sequence ts, DurableRecord.legible limits ⟨type, sequence, ts, payload⟩ = true) :
      Change limits a f (f.journalRecord a type payload ts).2
  | commit {f i e r} (pending : UInt32) (now : Instant) (found : f.attempts.entries[i]? = some e)
      (same : e.record.SameRequest r)
      (detail : r.detail.length ≤ limits.maxExplanationBytes.toNat ∨
        r.detail = e.record.detail) :
      Change limits a f (({ f with
        attempts := { f.attempts.overwrite i e r with pending := pending } } :
          Fabric).journalAttempt a r now)
  | insert {f} (now : Instant) (record : ApplicationRecord) (request : ApplyRequest)
      (running : f.running = true) (fresh : f.attempts.record record.attempt = none)
      (legible : record.Legible limits) :
      Change limits a f (f.insertAttempt a now record request).2

/-- A chain of changes. -/
abbrev Changes (limits : Limits) (a : Answers) : Fabric → Fabric → Prop :=
  Relation.ReflTransGen (Change limits a)

section
variable {limits : Limits} {f g : Fabric} {a : Answers}

theorem Changes.quiet (same : f.SameDurable g) (backends : g.backends ⊆ f.backends) :
    Changes limits a f g :=
  .single (.quiet same fun _ hb => .inl (backends hb))

/-- No change touches the configuration, or starts the coordinator. -/
theorem Change.frame (h : Change limits a f g) :
    g.config = f.config ∧ (g.running = true → f.running = true) := by
  cases h with
  | quiet same _ => exact ⟨same.config, same.running⟩
  | insert now record request running =>
    obtain ⟨_, _, h⟩ := f.insertAttempt_frame a now record request
    rw [h]
    exact ⟨rfl, id⟩
  | _ => exact ⟨rfl, id⟩

theorem Changes.frame (h : Changes limits a f g) :
    g.config = f.config ∧ (g.running = true → f.running = true) := by
  induction h with
  | refl => exact ⟨rfl, id⟩
  | tail _ hchange ih =>
    obtain ⟨hconfig, hrun⟩ := hchange.frame
    exact ⟨hconfig.trans ih.1, ih.2 ∘ hrun⟩

/-- A ledger write that keeps what the attempt was asked for. -/
theorem Changes.commit {i : ℕ} {e : AttemptEntry} {r : ApplicationRecord} (now : Instant)
    (found : f.attempts.entries[i]? = some e) (same : e.record.SameRequest r)
    (detail : r.detail.length ≤ limits.maxExplanationBytes.toNat ∨
      r.detail = e.record.detail) :
    Changes limits a f (f.commitRecord a i e r now) :=
  .single (.commit (AttemptLedger.pendingAfter f.attempts.pending e.record.state r.state) now
    found same detail)

theorem Changes.transition {i : ℕ} {e : AttemptEntry} {next : ApplicationState}
    {reason : ErrorCode} {detail : Bytes} {now at_ : Instant}
    (found : f.attempts.entries[i]? = some e)
    (short : detail.length ≤ limits.maxExplanationBytes.toNat) :
    Changes limits a f (f.commitRecord a i e (e.record.transition next at_ reason detail) now) :=
  .commit now found (e.record.transition_sameRequest ..) (.inl short)

theorem AttemptLedger.getElem?_of_find {l : AttemptLedger} {id : AttemptId} {i : ℕ}
    {e : AttemptEntry} (h : l.find id = some (i, e)) : l.entries[i]? = some e := by
  unfold find at h
  split at h
  · cases h
  · split at h
    · cases h
    · rename_i x hx
      split at h
      · obtain ⟨rfl, rfl⟩ := Prod.mk.inj (Option.some.inj h)
        exact hx
      · cases h

theorem EnvelopeTable.getElem?_of_find {t : EnvelopeTable} {id : EnvelopeId} {i : ℕ}
    {e : EnvelopeEntry} (h : t.find id = some (i, e)) :
    t.entries[i]? = some e ∧ e.live = true := by
  unfold find at h
  split at h
  · cases h
  · split at h
    · cases h
    · rename_i x hx
      split at h
      · obtain ⟨rfl, rfl⟩ := Prod.mk.inj (Option.some.inj h)
        exact ⟨hx, by assumption⟩
      · cases h

/-! ### Eviction -/

theorem EnvelopeEntry.legible_dead {e : EnvelopeEntry} (h : e.live = false) : e.Legible :=
  fun hlive => absurd hlive (by simp [h])

theorem evictAndCompact_legible (h : ∀ e ∈ f.envelopes.entries, e.Legible) :
    ∀ e ∈ f.evictAndCompact.envelopes.entries, e.Legible := by
  have hcompact : ∀ e ∈ f.compactTables.envelopes.entries, e.Legible := by
    unfold Fabric.compactTables
    dsimp only
    split
    · exact fun e he => h e (List.mem_of_mem_filter he)
    · exact h
  unfold Fabric.evictAndCompact
  dsimp only
  split
  · exact hcompact
  · unfold Fabric.evictOne
    dsimp only
    split
    · intro e he
      rcases List.mem_or_eq_of_mem_set he with he | rfl
      · exact hcompact e he
      · exact EnvelopeEntry.legible_dead rfl
    · exact hcompact

/-- Eviction is a change of the envelope table alone. -/
theorem evictAndCompact_eq (h : f.attempts.WellFormed) :
    f.evictAndCompact = { f with envelopes := f.evictAndCompact.envelopes } := by
  obtain ⟨envelopes, he⟩ := f.evictAndCompact_frame
  rw [he, compactTables_attempts h]

theorem Changes.evictAndCompact (h : f.attempts.WellFormed) :
    Changes limits a f f.evictAndCompact := by
  rw [evictAndCompact_eq h]
  exact .single (.envelopes _ evictAndCompact_legible)

/-! ### What a call knows and what it may write -/

/-- What the caller of `fetch_authority` has checked. -/
def Caller.Knows : Caller → Prop
  | .applyBefore p => p.envelope.authority.complete = true
  | _ => True

/-- What `fetch_authority` has checked. -/
def Fetch.Knows : Fetch → Prop
  | .grant binding _ | .sample binding _ _ | .stamp binding _ _ => binding.flow.valid = true
  | _ => True

/-- What a call has checked about the data it carries. -/
def Call.Knows (limits : Limits) (f : Fabric) : Call → Prop
  | .fetch caller _ phase => caller.Knows ∧ phase.Knows
  | .derive inputs _ => inputs.binding.flow.valid = true ∧ inputs.vector.complete = true
  | .reserve p => p.envelope.authority.complete = true
  | .register _ _ desc => (Fabric.checkDescriptor limits desc).isOk = true
  | .drain | .detach | .clear => f.running = false
  | _ => True

/-- What the step is about to write is within the bounds of the decoders, and every
descriptor a checkpoint reads is one `register_backend` accepts. -/
structure Call.Fits (limits : Limits) (f : Fabric) (a : Answers) (k : Call) : Prop where
  /-- A reason that marks an envelope revoked. -/
  reason : ∀ ref reason now i entry, k = .locked (.revokeEnvelope ref reason) now →
    f.running = true → f.envelopes.find ref.id = some (i, entry) →
    entry.envelope.ref.generation = ref.generation → entry.revoked = false →
    reason.length ≤ revocationReasonBytes
  /-- The detail of a backend call that failed. -/
  refusal : ∀ i status ack r, k = .acknowledge i status ack →
    f.attempts.record i.request.attempt = some r → r.state = .submitted →
    (f.backendPtr r.backend.id).isSome = true → status.isOk = false →
    status.detail.length ≤ limits.maxExplanationBytes.toNat
  /-- The detail of an acknowledgement or of a rejection. -/
  answer : ∀ i status ack r, k = .acknowledge i status ack →
    f.attempts.record i.request.attempt = some r → r.state = .submitted →
    (f.backendPtr r.backend.id).isSome = true → status.isOk = true →
    (ack.accepted = true → ack.attempt = i.request.attempt) →
    ack.detail.length ≤ limits.maxExplanationBytes.toNat
  /-- The minter of envelopes does not wrap to zero. -/
  envelopeId : ∀ inputs now, k = .derive inputs now → f.envelopeIds.counter ≠ Checked.u64Max
  /-- The minter of attempts does not wrap to zero. -/
  attemptId : ∀ p, k = .reserve p → p.requested.valid = false →
    f.attemptIds.counter ≠ Checked.u64Max
  /-- The descriptors a checkpoint reads. -/
  descriptors : ∀ backend ∈ f.backends, a.describes limits backend.2 = true
  registering : ∀ now backend desc, k = .register now backend desc →
    a.describes limits backend = true

/-! ### The commits -/

variable (hown : ownTextBytes ≤ limits.maxExplanationBytes.toNat)
include hown

theorem changes_acknowledge {i : Installing} {status : Status} {ack : ApplyAck}
    (hfit : (Call.acknowledge i status ack).Fits limits f a) :
    Changes limits a f (Call.step f a (.acknowledge i status ack)).1 := by
  rw [Call.step_acknowledge_fst]
  unfold Fabric.acknowledgeAttempt
  cases hf : f.attempts.find i.request.attempt with
  | none => exact .refl
  | some slot =>
    obtain ⟨j, e⟩ := slot
    have he := AttemptLedger.getElem?_of_find hf
    have hr : f.attempts.record i.request.attempt = some e.record := by
      simp [AttemptLedger.record, hf]
    dsimp only
    split
    · exact .refl
    rename_i hs
    have hs : e.record.state = .submitted := not_not.1 hs
    split
    · dsimp only
      exact .transition he (Nat.le_trans (by decide +kernel) hown)
    rename_i hb
    -- what the backend says goes into the record from here on
    have hb : (f.backendPtr e.record.backend.id).isSome = true := by
      simpa [Option.isSome_iff_ne_none] using hb
    split
    · rename_i hok
      dsimp only
      exact .transition he
        (hfit.refusal i status ack _ rfl hr hs hb (by simpa using hok))
    rename_i hok
    have hok : status.isOk = true := by simpa using hok
    split
    · rename_i hacc
      dsimp only
      exact .transition he
        (hfit.answer i status ack _ rfl hr hs hb hok fun h => by simp [h] at hacc)
    split
    · dsimp only
      exact .transition he (Nat.le_trans (by decide +kernel) hown)
    · rename_i hack
      dsimp only
      refine .commit _ he ⟨⟨rfl, rfl, rfl, rfl, rfl, rfl⟩, rfl, rfl⟩ ?_
      exact .inl (hfit.answer i status ack _ rfl hr hs hb hok fun _ => not_not.1 hack)

theorem changes_commitUnverified (i : Installing) (current : StatusOr AuthorityInputs) :
    Changes limits a f (Call.step f a (.commitUnverified i current)).1 := by
  simp only [Call.step, Fabric.commitUnverified]
  cases hf : f.attempts.find i.request.attempt with
  | none => exact .refl
  | some slot =>
    obtain ⟨j, e⟩ := slot
    have he := AttemptLedger.getElem?_of_find hf
    dsimp only
    split
    · exact .refl
    · split
      · dsimp only
        exact .transition he (Nat.le_trans (by decide +kernel) hown)
      · have hshort : (Bytes.ofString
            "backend does not support readback; effect is UNKNOWN").length ≤ ownTextBytes := by
          decide +kernel
        dsimp only
        exact .commit _ he ⟨⟨rfl, rfl, rfl, rfl, rfl, rfl⟩, rfl, rfl⟩
          (.inl (Nat.le_trans hshort hown))

theorem changes_commitVerified (i : Installing) (status : Status) (evidence : ReadbackEvidence)
    (current : StatusOr AuthorityInputs) :
    Changes limits a f (Call.step f a (.commitVerified i status evidence current)).1 := by
  simp only [Call.step, Fabric.commitVerified]
  cases hf : f.attempts.find i.request.attempt with
  | none => exact .refl
  | some slot =>
    obtain ⟨j, e⟩ := slot
    have he := AttemptLedger.getElem?_of_find hf
    dsimp only
    split
    · exact .refl
    split
    · dsimp only
      exact .transition he (Nat.le_trans (by decide +kernel) hown)
    split
    · dsimp only
      exact .transition he (Nat.le_trans (by decide +kernel) hown)
    · dsimp only
      exact .commit _ he (e.record.finalizeEvidence_sameRequest ..)
        (.inl (Nat.le_trans (e.record.finalizeEvidence_detail ..) hown))

theorem changes_staleCheck (c : Check) (drift : AuthorityDrift) :
    Changes limits a f (Call.step f a (.staleCheck c drift)).1 := by
  have hshort := Nat.le_trans (driftDetail_length drift) hown
  simp only [Call.step, Fabric.staleVerify, Fabric.staleRevalidate]
  cases c.kind with
  | verify =>
    cases hf : f.attempts.find c.id with
    | none => exact .refl
    | some slot =>
      dsimp only
      exact .transition (AttemptLedger.getElem?_of_find hf) hshort
  | revalidate =>
    cases hf : f.attempts.find c.id with
    | none => exact .refl
    | some slot =>
      dsimp only
      exact .commit _ (AttemptLedger.getElem?_of_find hf)
        ⟨⟨rfl, rfl, rfl, rfl, rfl, rfl⟩, rfl, rfl⟩ (.inl hshort)

theorem changes_finalizeCheck (c : Check) (status : Status) (evidence : ReadbackEvidence)
    (current : AuthorityInputs) :
    Changes limits a f (Call.step f a (.finalizeCheck c status evidence current)).1 := by
  simp only [Call.step, Fabric.finalizeVerify, Fabric.finalizeRevalidate]
  cases c.kind with
  | verify =>
    dsimp only
    cases hf : f.attempts.find c.id with
    | none => exact .refl
    | some slot =>
      dsimp only
      exact .commit _ (AttemptLedger.getElem?_of_find hf)
        (slot.2.record.finalizeEvidence_sameRequest ..)
        (.inl (Nat.le_trans (slot.2.record.finalizeEvidence_detail ..) hown))
  | revalidate =>
    dsimp only
    cases hf : f.attempts.find c.id with
    | none => exact .refl
    | some slot =>
      have hfinal := slot.2.record.finalizeEvidence_sameRequest c.envelope.cadence evidence true
        .ok c.now
      dsimp only
      exact .commit _ (AttemptLedger.getElem?_of_find hf)
        ⟨⟨hfinal.work.attempt, hfinal.work.envelope, hfinal.work.authority, hfinal.work.desired,
          hfinal.work.backend, hfinal.work.backendSynthetic⟩, hfinal.flow, hfinal.resource⟩
        (.inl (Nat.le_trans (slot.2.record.finalizeEvidence_detail ..) hown))

theorem changes_noEvidence (c : Check) :
    Changes limits a f (Call.step f a (.noEvidence c)).1 := by
  simp only [Call.step, Fabric.noEvidence]
  cases hf : f.attempts.find c.id with
  | none => exact .refl
  | some slot =>
    have he := AttemptLedger.getElem?_of_find hf
    have hshort : (Bytes.ofString
        "revalidation could not obtain positive backend evidence").length ≤ ownTextBytes := by
      decide +kernel
    dsimp only
    split
    · exact .commit _ he ⟨⟨rfl, rfl, rfl, rfl, rfl, rfl⟩, rfl, rfl⟩
        (.inl (Nat.le_trans hshort hown))
    · -- the flag alone is written, the detail stays
      exact .commit _ he ⟨⟨rfl, rfl, rfl, rfl, rfl, rfl⟩, rfl, rfl⟩ (.inr rfl)

/-! ### Closing operations -/

theorem changes_cancelAttempt (hlimits : f.config.limits = limits) (id : AttemptId)
    (reason : Bytes) (now : Instant) :
    Changes limits a f (Call.step f a (.locked (.cancelAttempt id reason) now)).1 := by
  simp only [Call.step, Call.lockedStep]
  split
  · exact .refl
  rename_i hreason
  rw [hlimits] at hreason
  have hreason := Nat.le_of_not_lt hreason
  unfold Fabric.cancelAttempt
  split
  · exact .refl
  cases hf : f.attempts.find id with
  | none => exact .refl
  | some slot =>
    have he := AttemptLedger.getElem?_of_find hf
    dsimp only
    split
    · exact .refl
    · unfold Fabric.cancelledRecord
      dsimp only
      split
      · refine .transition he ?_
        split
        · exact Nat.le_trans (by decide +kernel) hown
        · exact hreason
      · refine .transition he ?_
        split
        · exact Nat.le_trans (by decide +kernel) hown
        · exact hreason

omit hown in
/-- The loop of `revoke_envelope`. -/
theorem changes_revokeAttempts {reason : Bytes}
    (hreason : reason.length ≤ limits.maxExplanationBytes.toNat) (now : Instant)
    (envelope : EnvelopeId) (cadence : Cadence) :
    Changes limits a f (f.revokeAttempts a now envelope cadence reason).2 := by
  refine List.foldlRecOn (f.attempts.byEnvelope envelope.value)
    (Fabric.revokeAttempt a now cadence reason)
    (motive := fun acc : List Withdrawal × Fabric => Changes limits a f acc.2) .refl ?_
  rintro ⟨todo, g⟩ hg id -
  unfold Fabric.revokeAttempt
  dsimp only at hg ⊢
  cases hf : g.attempts.find id with
  | none => exact hg
  | some slot =>
    dsimp only
    split
    · exact hg
    · dsimp only
      exact hg.trans (Changes.transition (AttemptLedger.getElem?_of_find hf) hreason)

omit hown in
/-- The loop of both fences. -/
theorem changes_fenceAttempts {detail : Bytes}
    (hdetail : detail.length ≤ limits.maxExplanationBytes.toNat) (now : Instant)
    (epoch : Epoch) : Changes limits a f (f.fenceAttempts a now epoch detail) := by
  refine List.foldlRecOn (List.range f.attempts.entries.length)
    (Fabric.fenceAttempt a now epoch detail)
    (motive := fun g => Changes limits a f g) .refl ?_
  intro g hg i _
  unfold Fabric.fenceAttempt
  cases he : g.attempts.entries[i]? with
  | none => exact hg
  | some e =>
    dsimp only
    split
    · exact hg.trans (Changes.transition he hdetail)
    · exact hg

omit hown in
theorem changes_fenceEnvelopes (epoch : Epoch) {reason : Bytes}
    (hreason : reason.length ≤ revocationReasonBytes) :
    Changes limits a f (f.fenceEnvelopes epoch reason) := by
  refine .single (.envelopes _ fun h e he => ?_)
  obtain ⟨e₀, he₀, rfl⟩ := List.mem_map.1 he
  split
  · exact fun hlive => ⟨(h e₀ he₀ hlive).1, fun _ => hreason⟩
  · exact h e₀ he₀

omit hown in
/-- Marking an envelope, with a reason its decoder accepts. -/
theorem changes_setRevoked {i : ℕ} {entry : EnvelopeEntry} {revoked : Bool} {reason : Bytes}
    (hentry : ∃ e ∈ f.envelopes.entries, e.live = entry.live ∧ e.envelope = entry.envelope)
    (hreason : reason.length ≤ revocationReasonBytes) :
    Changes limits a f (f.setRevoked i entry revoked reason) := by
  obtain ⟨e₀, he₀, hlive₀, henv₀⟩ := hentry
  refine .single (.envelopes _ fun h e he => ?_)
  rcases List.mem_or_eq_of_mem_set he with he | rfl
  · exact h e he
  · exact fun hlive => ⟨henv₀ ▸ (h e₀ he₀ (hlive₀.trans hlive)).1, fun _ => hreason⟩

omit hown in
theorem changes_revokeEnvelope (hlimits : f.config.limits = limits) (ref : EnvelopeRef)
    (reason : Bytes) (now : Instant)
    (hfit : (Call.locked (.revokeEnvelope ref reason) now).Fits limits f a) :
    Changes limits a f (Call.step f a (.locked (.revokeEnvelope ref reason) now)).1 := by
  simp only [Call.step, Call.lockedStep]
  split
  · exact .refl
  rename_i hvalid
  split
  · exact .refl
  rename_i hreason
  rw [hlimits] at hreason
  have hreason := Nat.le_of_not_lt hreason
  unfold Fabric.revokeEnvelope
  split
  · exact .refl
  rename_i hrun
  cases hf : f.envelopes.find ref.id with
  | none => exact .refl
  | some slot =>
    obtain ⟨i, entry⟩ := slot
    obtain ⟨hentry, hlive⟩ := EnvelopeTable.getElem?_of_find hf
    dsimp only
    split
    · exact .refl
    rename_i hgen
    split
    · exact changes_revokeAttempts hreason now ref.id entry.envelope.cadence
    rename_i hrev
    have hmark : reason.length ≤ revocationReasonBytes :=
      hfit.reason ref reason now i entry rfl (by simpa using hrun) hf (not_not.1 hgen)
        (by simpa using hrev)
    have hset : Changes limits a f (f.setRevoked i entry true reason) :=
      changes_setRevoked ⟨entry, List.mem_of_getElem? hentry, rfl, rfl⟩ hmark
    split
    · exact hset
    rename_i payload hpayload
    have hlegible : ∀ sequence ts, DurableRecord.legible limits
        ⟨.envelopeRevocation, sequence, ts, payload⟩ = true := by
      intro sequence ts
      change (decodePayload decodeRevocation payload).isSome = true
      rw [accepts_revocation (by simpa using hvalid) hmark hpayload]
      rfl
    have hjournal := hset.tail (.inert .envelopeRevocation payload now.ns rfl hlegible)
    split
    · refine hjournal.trans (changes_setRevoked ⟨{ entry with
        revoked := true, revokeReason := reason }, ?_, rfl, rfl⟩ (Nat.zero_le _))
      obtain ⟨hi, -⟩ := List.getElem?_eq_some_iff.1 hentry
      exact List.mem_set hi _
    · exact hjournal.trans (changes_revokeAttempts hreason now ref.id entry.envelope.cadence)

theorem changes_fenceBelow (epoch : Epoch) (now : Instant) :
    Changes limits a f (Call.step f a (.locked (.fenceBelow epoch) now)).1 := by
  have hshort : (Bytes.ofString "fenced by coordinator epoch").length ≤ ownTextBytes := by
    decide +kernel
  simp only [Call.step, Call.lockedStep]
  split
  · exact .refl
  · unfold Fabric.fenceBelow
    split
    · exact .refl
    · exact (changes_fenceEnvelopes epoch (Nat.le_trans hshort (by decide))).trans
        (changes_fenceAttempts (Nat.le_trans hshort hown) now epoch)

theorem changes_advanceEpoch (now : Instant) :
    Changes limits a f (Call.step f a (.locked .advanceEpoch now)).1 := by
  rw [show (Call.step f a (.locked .advanceEpoch now)).1 = (f.advanceEpoch a now).2 from
    Call.lockedStep_fst f a now .advanceEpoch]
  unfold Fabric.advanceEpoch
  split
  · exact .refl
  change Changes limits a f (f.advanceEpochLocked a now).2
  have hmark : (Bytes.ofString "coordinator epoch advanced").length ≤ revocationReasonBytes := by
    decide +kernel
  have hshort : (Bytes.ofString "coordinator epoch advanced past this attempt").length ≤
      ownTextBytes := by decide +kernel
  unfold Fabric.advanceEpochLocked
  dsimp only
  split
  · exact .refl
  rename_i hroom
  have hvalid := Epoch.valid_advanced (e := f.epoch) (by simpa using hroom)
  have hstart : Changes limits a f { f with epoch := f.epoch.advanced.1 } :=
    .single (.epoch _ hvalid)
  have hloop := (hstart.trans (changes_fenceEnvelopes f.epoch.advanced.1 hmark)).trans
    (changes_fenceAttempts (Nat.le_trans hshort hown) now f.epoch.advanced.1)
  split
  · exact hloop
  · rename_i payload hpayload
    refine hloop.tail (.inert .epochAdvance payload now.ns rfl fun sequence ts => ?_)
    obtain ⟨_, _, hframe⟩ := Fabric.fenceAttempts_frame
      (Fabric.fenceEnvelopes { f with epoch := f.epoch.advanced.1 } f.epoch.advanced.1
        "coordinator epoch advanced") a now f.epoch.advanced.1
      "coordinator epoch advanced past this attempt"
    rw [hframe] at hpayload
    change (decodePayload decodeEpoch payload).isSome = true
    rw [accepts_epoch hvalid hpayload]
    rfl

omit hown

/-! ### Derivation and reservation -/

/-- The envelope of a derivation is legible when its identity is not zero. -/
theorem assembleEnvelope_legible {config : FabricConfig} {inputs : AuthorityInputs}
    {outcome : DerivationOutcome} {now : Instant} {expiry : UInt64} {synthetic : Bool}
    {envelopeId provenanceId : UInt64} (hflow : inputs.binding.flow.valid = true)
    (hvector : inputs.vector.complete = true) (hid : envelopeId ≠ 0)
    (hderived : deriveCadence (Fabric.derivationInput inputs) limits = .ok outcome) :
    (Fabric.assembleEnvelope config inputs outcome now expiry synthetic envelopeId
      provenanceId).Legible where
  id := by simpa [Fabric.assembleEnvelope, Id.valid] using hid
  generation := rfl
  flow := hflow
  authority := hvector
  rate := by
    have hceiling : (Fabric.derivationInput inputs).ceilingBps = inputs.grant.ceilingBps := by
      unfold Fabric.derivationInput
      split <;> rfl
    have hrate := (derivation_of_ok hderived).rate_le_ceiling
    rwa [hceiling] at hrate

theorem next_ne_zero {m : IdMinter} (h : m.counter ≠ Checked.u64Max) : m.next.1 ≠ 0 :=
  add_one_ne_zero h

/-- The end of a derivation: the envelope is journaled and admitted. -/
theorem changes_issueEnvelope (h : f.attempts.WellFormed) {envelope : PacingEnvelope}
    (hlegible : envelope.Legible) (now : Instant) :
    Changes limits a f (f.issueEnvelope a now envelope).2 := by
  unfold Fabric.issueEnvelope
  split
  · exact .refl
  rename_i payload hpayload
  have hjournal : Changes limits a f (f.journalRecord a .envelope payload now.ns).2 := by
    refine .single (.inert .envelope payload now.ns rfl fun sequence ts => ?_)
    obtain ⟨deadline, hdecode⟩ := accepts_envelope hlegible hpayload
    change (decodePayload decodeEnvelope payload).isSome = true
    rw [hdecode]
    rfl
  dsimp only
  split
  · exact hjournal
  · refine hjournal.trans ?_
    have hwf : (f.journalRecord a .envelope payload now.ns).2.attempts.WellFormed := h
    unfold Fabric.admitEnvelope
    dsimp only
    split
    · exact Changes.evictAndCompact hwf
    · refine (Changes.evictAndCompact hwf).tail (.envelopes _ fun hold e he => ?_)
      rcases List.mem_append.1 he with he | he
      · exact hold e he
      · obtain rfl := List.mem_singleton.1 he
        exact fun _ => ⟨hlegible, nofun⟩

theorem changes_derive (h : f.attempts.WellFormed) {inputs : AuthorityInputs} {now : Instant}
    (hknows : (Call.derive inputs now).Knows limits f)
    (hfit : (Call.derive inputs now).Fits limits f a) :
    Changes limits a f (Call.step f a (.derive inputs now)).1 := by
  change Changes limits a f (f.deriveEnvelope a inputs now).2
  unfold Fabric.deriveEnvelope
  split
  · exact .refl
  unfold Fabric.deriveEnvelopeInternal
  have hlegible := fun outcome (expiry : UInt64) (hderived : deriveCadence
      (Fabric.derivationInput inputs) f.config.limits = .ok outcome) =>
    @assembleEnvelope_legible _ f.config _ _ now expiry a.synthetic _
      f.provenanceIds.next.1 hknows.1 hknows.2
      (next_ne_zero (hfit.envelopeId inputs now rfl)) hderived
  -- the derivation itself is kept abstract: only its outcome matters here
  generalize deriveCadence (Fabric.derivationInput inputs) f.config.limits = derived at hlegible
  generalize Fabric.expiryNs f.config inputs.grant now = expiry
  cases derived with
  | error status => exact .refl
  | ok outcome =>
    cases expiry with
    | error status => exact .refl
    | ok expiry =>
      have hmint : Changes limits a f { f with
          envelopeIds := f.envelopeIds.next.2, provenanceIds := f.provenanceIds.next.2 } :=
        .quiet ⟨rfl, id, rfl, rfl, rfl, rfl, rfl, rfl⟩ (List.Subset.refl _)
      exact hmint.trans (changes_issueEnvelope (f := { f with
        envelopeIds := f.envelopeIds.next.2, provenanceIds := f.provenanceIds.next.2 }) h
        (hlegible outcome expiry rfl) now)

/-- Phase C from the choice of the identity on. -/
theorem changes_reserveFresh (hrun : f.running = true) {envelope : PacingEnvelope}
    (hcomplete : envelope.authority.complete = true) {requested : AttemptId}
    (hid : requested.valid = false → f.attemptIds.counter ≠ Checked.u64Max) (now : Instant)
    (ref : EnvelopeRef) (backend : BackendPtr) :
    Changes limits a f (f.reserveFresh a now ref requested envelope backend).2 := by
  unfold Fabric.reserveFresh
  dsimp only
  split
  · exact Changes.quiet ⟨rfl, id, rfl, rfl, rfl, rfl, rfl, rfl⟩ (List.Subset.refl _)
  rename_i hnone
  have hfresh : f.attempts.record (f.attemptIdentity requested).1 = none := by
    rw [AttemptLedger.record, Option.not_isSome_iff_eq_none.1 hnone, Option.map_none]
  have hvalid : (f.attemptIdentity requested).1.valid = true := by
    unfold Fabric.attemptIdentity
    split
    · assumption
    · rename_i hrequested
      exact bne_iff_ne.2 (next_ne_zero (hid (by simpa using hrequested)))
  have hmint : Changes limits a f { f with attemptIds :=
      (f.attemptIdentity requested).2.setFloor (f.attemptIdentity requested).1.value } :=
    .quiet ⟨rfl, id, rfl, rfl, rfl, rfl, rfl, rfl⟩ (List.Subset.refl _)
  exact hmint.tail (.insert now _ _ hrun hfresh ⟨hvalid, hcomplete, Nat.zero_le _⟩)

theorem changes_reserve (h : f.attempts.WellFormed) {p : Applying}
    (hknows : (Call.reserve p).Knows limits f) (hfit : (Call.reserve p).Fits limits f a) :
    Changes limits a f (Call.step f a (.reserve p)).1 := by
  rw [Call.step_reserve_fst]
  unfold Fabric.reserveAttempt
  split
  · exact .refl
  rename_i hrun
  split
  · exact .refl
  split
  · exact .refl
  cases f.findDuplicate p.ref p.backendId p.requested with
  | some reservation => exact .refl
  | none =>
    dsimp only
    split
    · exact .refl
    have hevict := @Changes.evictAndCompact limits _ a h
    split
    · exact hevict
    · refine hevict.trans ?_
      rw [evictAndCompact_eq h]
      exact changes_reserveFresh (f := { f with envelopes := f.evictAndCompact.envelopes })
        (by simpa using hrun) hknows (hfit.attemptId p rfl) ..

/-! ### All steps -/

/-- A step that writes nothing durable adds no backend. -/
theorem Call.step_backends_subset {k : Call} (hs : k.writesStorage = false) :
    (Call.step f a k).1.backends ⊆ f.backends := by
  by_cases hk : k.writesBackends = false
  · rw [(Call.step_frame f a k).backends hk]
    exact List.Subset.refl _
  cases k with
  | clear => exact List.nil_subset _
  | register now backend desc => cases hs
  | locked request now => cases hs
  | _ => exact absurd rfl hk

/-- A step that writes nothing durable. -/
theorem changes_quiet {k : Call} (hs : k.writesStorage = false)
    (hrun : (Call.step f a k).1.running = true → f.running = true) :
    Changes limits a f (Call.step f a k).1 := by
  have hframe := Call.step_frame f a k
  have hledger : k.writesAttempts = false → (Call.step f a k).1.attempts =
      { f.attempts with pending := (Call.step f a k).1.attempts.pending } := fun hk => by
    rw [hframe.attempts hk]
  refine .quiet ⟨hframe.config, hrun, hframe.epoch ?_, hframe.bindings ?_, hframe.policies ?_,
    hframe.envelopes ?_, hledger ?_, hframe.storage hs⟩ (Call.step_backends_subset hs)
  all_goals
    cases k <;> first
      | rfl
      | simp [Call.writesStorage, Call.writesAttempts] at hs

theorem changes_register {now : Instant} {backend : BackendPtr} {desc : BackendDescriptor}
    (hknows : (Call.register now backend desc).Knows limits f)
    (hfit : (Call.register now backend desc).Fits limits f a) :
    Changes limits a f (Call.step f a (.register now backend desc)).1 := by
  change Changes limits a f (f.registerBackend a now backend desc).2
  have hjoin : ∀ backends, (∀ b ∈ backends, b ∈ f.backends ∨ b = (desc.ref.id, backend)) →
      Changes limits a f { f with backends := backends } := by
    intro backends hb
    refine .single (.quiet ⟨rfl, id, rfl, rfl, rfl, rfl, rfl, rfl⟩ fun b hmem => ?_)
    rcases hb b hmem with hold | rfl
    · exact .inl hold
    · exact .inr (hfit.registering now backend desc rfl)
  -- the record is read back because the descriptor passed its checks
  have hjournal : ∀ backends, Changes limits a f { f with backends := backends } →
      ∀ payload, (encodeBackendDescriptor ⟨1024, [], none⟩ desc).finish = .ok payload →
      Changes limits a f
        (({ f with backends := backends } : Fabric).journalRecord a .backendRegistration payload
          now.ns).2 := by
    intro backends hbackends payload hpayload
    refine hbackends.tail (.inert .backendRegistration payload now.ns rfl fun _ _ => ?_)
    change (decodePayload (decodeBackendDescriptor limits) payload).isSome = true
    rw [accepts_backendDescriptor hknows hpayload]
    rfl
  unfold Fabric.registerBackend
  split
  · exact .refl
  dsimp only
  split
  · exact .refl
  cases f.backends.findIdx? (·.1 == desc.ref.id) with
  | none =>
    have hadd := hjoin (f.backends ++ [(desc.ref.id, backend)]) fun b hb => by simpa using hb
    dsimp only
    split
    · exact hadd
    · exact hjournal _ hadd _ (by assumption)
  | some i =>
    have hset := hjoin (f.backends.set i (desc.ref.id, backend)) fun b hb =>
      List.mem_or_eq_of_mem_set hb
    dsimp only
    split
    · exact hset
    · exact hjournal _ hset _ (by assumption)

include hown in
/-- Every step that leaves both registries alone is a chain of changes. -/
theorem Call.step_changes (h : f.attempts.WellFormed) (hlimits : f.config.limits = limits)
    {k : Call} (hk : (k.writesBindings || k.writesPolicies) = false) (hknows : k.Knows limits f)
    (hfit : k.Fits limits f a) : Changes limits a f (Call.step f a k).1 := by
  cases k with
  | derive inputs now => exact changes_derive h hknows hfit
  | reserve p => exact changes_reserve h hknows hfit
  | acknowledge i status ack => exact changes_acknowledge hown hfit
  | commitUnverified i current => exact changes_commitUnverified hown i current
  | commitVerified i status evidence current =>
    exact changes_commitVerified hown i status evidence current
  | staleCheck c drift => exact changes_staleCheck hown c drift
  | noEvidence c => exact changes_noEvidence hown c
  | finalizeCheck c status evidence current =>
    exact changes_finalizeCheck hown c status evidence current
  | register now backend desc => exact changes_register hknows hfit
  | locked request now =>
    have hstep := Call.lockedStep_fst f a now request
    cases request with
    | advanceEpoch => exact changes_advanceEpoch hown now
    | cancelAttempt id reason => exact changes_cancelAttempt hown hlimits id reason now
    | revokeEnvelope ref reason => exact changes_revokeEnvelope hlimits ref reason now hfit
    | fenceBelow epoch => exact changes_fenceBelow hown epoch now
    | bindFlow | unbindFlow | publishPolicy | removePolicy => cases hk
    | unregisterBackend backend =>
      rw [show (Call.step f a (.locked (.unregisterBackend backend) now)).1 =
        (f.unregisterBackend backend).2 from hstep]
      unfold Fabric.unregisterBackend
      split
      · exact .refl
      · exact .quiet ⟨rfl, id, rfl, rfl, rfl, rfl, rfl, rfl⟩ (List.eraseIdx_sublist ..).subset
    | _ => exact hstep ▸ .refl
  | detach => exact .single (.detach hknows)
  | stop =>
    refine changes_quiet rfl ?_
    simp only [Call.step]
    split
    · exact id
    · exact fun hrun => by cases hrun
  | enter request => exact changes_quiet rfl (by cases request <;> exact id)
  | fetch caller flow phase =>
    obtain ⟨_, hframe⟩ := Call.fetchStep_fst f a caller flow phase
    refine changes_quiet rfl ?_
    rw [show (Call.step f a (.fetch caller flow phase)).1 =
      (Call.fetchStep f a caller flow phase).1 from rfl, hframe]
    exact id
  | _ => exact changes_quiet rfl id

/-- The steps that write a registry. -/
theorem Call.registry_cases {k : Call} (hk : (k.writesBindings || k.writesPolicies) = true) :
    ∃ now, (∃ binding, k = .locked (.bindFlow binding) now) ∨
      (∃ flow, k = .locked (.unbindFlow flow) now) ∨
      (∃ policy, k = .locked (.publishPolicy policy) now) ∨
      ∃ id, k = .locked (.removePolicy id) now := by
  cases k with
  | locked request now =>
    refine ⟨now, ?_⟩
    cases request with
    | bindFlow binding => exact .inl ⟨binding, rfl⟩
    | unbindFlow flow => exact .inr (.inl ⟨flow, rfl⟩)
    | publishPolicy policy => exact .inr (.inr (.inl ⟨policy, rfl⟩))
    | removePolicy id => exact .inr (.inr (.inr ⟨id, rfl⟩))
    | _ => cases hk
  | _ => cases hk

include hown in
/-- No step changes the configuration, or starts the coordinator. -/
theorem Call.step_running (h : f.attempts.WellFormed) (hlimits : f.config.limits = limits)
    {k : Call} (hknows : k.Knows limits f) (hfit : k.Fits limits f a) :
    (Call.step f a k).1.running = true → f.running = true := by
  cases hk : k.writesBindings || k.writesPolicies with
  | false => exact (Call.step_changes hown h hlimits hk hknows hfit).frame.2
  | true =>
    obtain ⟨now, ⟨binding, rfl⟩ | ⟨flow, rfl⟩ | ⟨policy, rfl⟩ | ⟨id, rfl⟩⟩ :=
      Call.registry_cases hk
    · obtain ⟨_, _, hframe⟩ := f.bindFlow_frame a now binding
      rw [show (Call.step f a (.locked (.bindFlow binding) now)).1 = _ from hframe]
      exact fun h => h
    · obtain ⟨_, _, hframe⟩ := f.unbindFlow_frame a now flow
      rw [show (Call.step f a (.locked (.unbindFlow flow) now)).1 = _ from hframe]
      exact fun h => h
    · obtain ⟨_, _, hframe⟩ := f.publishPolicy_frame a now policy
      rw [show (Call.step f a (.locked (.publishPolicy policy) now)).1 = _ from hframe]
      exact fun h => h
    · obtain ⟨_, _, hframe⟩ := f.removePolicy_frame a now id
      rw [show (Call.step f a (.locked (.removePolicy id) now)).1 = _ from hframe]
      exact fun h => h

/-! ### What a step establishes -/

/-- What a caller of `fetch_authority` knows is enough for what follows its return. -/
theorem Call.resume_knows {caller : Caller} {current : StatusOr AuthorityInputs}
    (hcaller : caller.Knows) (hcurrent : ∀ inputs, current = .ok inputs →
      inputs.binding.flow.valid = true ∧ inputs.vector.complete = true) :
    (Call.resume current caller).Knows limits f := by
  unfold Call.resume
  cases caller with
  | derive now =>
    cases current with
    | error status => trivial
    | ok inputs => exact hcurrent inputs rfl
  | applyBefore p =>
    cases current with
    | error status => trivial
    | ok inputs =>
      dsimp only
      split
      · trivial
      · exact hcaller
  | applyUnverified i => trivial
  | applyAfter i status evidence => trivial
  | check c =>
    cases current with
    | error status => trivial
    | ok inputs =>
      dsimp only
      split
      · trivial
      · split <;> trivial

theorem Call.resume_error_knows {caller : Caller} {status : Status} (hcaller : caller.Knows) :
    (Call.resume (.error status) caller).Knows limits f :=
  Call.resume_knows hcaller fun _ h => by cases h

theorem Call.withdrawing_knows (todo : List Withdrawal) (reason : Bytes) (reply : Reply) :
    (Call.withdrawing todo reason reply).Knows limits f := by
  unfold Call.withdrawing
  split <;> trivial

theorem Call.fetchStep_knows {caller : Caller} {flow : FlowId} {phase : Fetch}
    (hknows : (Call.fetch caller flow phase).Knows limits f) :
    (Call.fetchStep f a caller flow phase).2.Knows limits g := by
  obtain ⟨hcaller, hphase⟩ := hknows
  cases phase with
  | trust =>
    simp only [Call.fetchStep]
    split
    · exact ⟨hcaller, trivial⟩
    · exact Call.resume_error_knows hcaller
  | lookup =>
    simp only [Call.fetchStep]
    split
    · exact Call.resume_error_knows hcaller
    · -- only a usable binding is handed on, and its flow is valid
      rename_i binding policy hlookup
      refine ⟨hcaller, ?_⟩
      unfold Fabric.lookupAuthority at hlookup
      split at hlookup
      · cases hlookup
      split at hlookup
      · cases hlookup
      rename_i husable
      split at hlookup
      · cases hlookup
      split at hlookup
      · cases hlookup
      obtain ⟨rfl, -⟩ := Prod.mk.inj (Except.ok.inj hlookup)
      rw [FlowBinding.usable, Bool.not_eq_true', Bool.not_eq_false, Bool.and_eq_true,
        Bool.and_eq_true, Bool.and_eq_true, Bool.and_eq_true] at husable
      exact husable.1.1.1.1
  | grant binding policy =>
    simp only [Call.fetchStep]
    split
    · exact Call.resume_error_knows hcaller
    · exact ⟨hcaller, hphase⟩
  | sample binding policy grant =>
    simp only [Call.fetchStep]
    split
    · exact Call.resume_error_knows hcaller
    · exact ⟨hcaller, hphase⟩
  | stamp binding policy grant =>
    refine Call.resume_knows hcaller fun inputs hinputs => ?_
    unfold Fabric.stampAuthority at hinputs
    dsimp only at hinputs
    split at hinputs
    · cases hinputs
    · rename_i hcomplete
      obtain rfl := Except.ok.inj hinputs
      exact ⟨hphase, by simpa using hcomplete⟩

/-- The locked section of a request establishes what the call knows next. -/
theorem Call.lockedStep_knows (henv : ∀ e ∈ f.envelopes.entries, e.Legible) {now : Instant}
    {request : Request} {k : Call} (hnext : (Call.lockedStep f a now request).2 = some k) :
    k.Knows limits g := by
  cases request with
  | applyEnvelope ref backendId requested =>
    simp only [Call.lockedStep] at hnext
    split at hnext
    · obtain rfl := Option.some.inj hnext
      trivial
    split at hnext
    · obtain rfl := Option.some.inj hnext
      trivial
    split at hnext
    · obtain rfl := Option.some.inj hnext
      trivial
    · -- the envelope comes from a live slot
      rename_i envelope backend hresolve
      obtain rfl := Option.some.inj hnext
      refine ⟨?_, trivial⟩
      unfold Fabric.resolveApply at hresolve
      split at hresolve
      · cases hresolve
      split at hresolve
      · cases hresolve
      rename_i i entry hentry
      obtain ⟨hget, hlive⟩ := EnvelopeTable.getElem?_of_find hentry
      split at hresolve
      · cases hresolve
      split at hresolve
      · cases hresolve
      split at hresolve
      · cases hresolve
      split at hresolve
      · cases hresolve
      obtain ⟨rfl, -⟩ := Prod.mk.inj (Except.ok.inj hresolve)
      exact (henv entry (List.mem_of_getElem? hget) hlive).1.authority
  | deriveEnvelope flow =>
    obtain rfl := Option.some.inj hnext
    exact ⟨trivial, trivial⟩
  | verifyAttempt id =>
    simp only [Call.lockedStep] at hnext
    split at hnext <;> obtain rfl := Option.some.inj hnext
    · trivial
    · exact ⟨trivial, trivial⟩
  | revalidate id =>
    simp only [Call.lockedStep] at hnext
    split at hnext <;> obtain rfl := Option.some.inj hnext
    · trivial
    · exact ⟨trivial, trivial⟩
  | registerBackend backend =>
    cases backend <;> obtain rfl := Option.some.inj hnext <;> trivial
  | advanceEpoch =>
    simp only [Call.lockedStep] at hnext
    split at hnext <;> obtain rfl := Option.some.inj hnext
    · trivial
    · unfold Call.rebinding
      split <;> trivial
  | cancelAttempt id reason =>
    simp only [Call.lockedStep] at hnext
    split at hnext <;> obtain rfl := Option.some.inj hnext
    · trivial
    · exact Call.withdrawing_knows ..
  | revokeEnvelope ref reason =>
    simp only [Call.lockedStep] at hnext
    split at hnext
    · obtain rfl := Option.some.inj hnext
      trivial
    split at hnext <;> obtain rfl := Option.some.inj hnext
    · trivial
    · exact Call.withdrawing_knows ..
  | fenceBelow epoch =>
    simp only [Call.lockedStep] at hnext
    split at hnext <;> obtain rfl := Option.some.inj hnext
    · trivial
    · exact Call.withdrawing_knows ..
  | currentTick => cases hnext
  | shutdown => cases hnext
  | _ =>
    obtain rfl := Option.some.inj hnext
    trivial

/-- What a call knows depends on the state only in that nobody starts it again. -/
theorem Call.Knows.mono {k : Call} (h : k.Knows limits f)
    (hrun : f.running = false → g.running = false) : k.Knows limits g := by
  cases k with
  | drain | detach | clear => exact hrun h
  | _ => exact h

/-- A step establishes what the call knows at its next point. -/
theorem Call.step_knows (henv : ∀ e ∈ f.envelopes.entries, e.Legible)
    (hlimits : f.config.limits = limits) {k k' : Call} (hknows : k.Knows limits f)
    (hnext : (Call.step f a k).2 = some k') : k'.Knows limits (Call.step f a k).1 := by
  cases k with
  | enter request =>
    cases request <;> obtain rfl := Option.some.inj hnext <;>
      trivial
  | trust request =>
    obtain rfl := Option.some.inj hnext
    split <;> trivial
  | locked request now => exact Call.lockedStep_knows henv hnext
  | describe now backend =>
    obtain rfl := Option.some.inj hnext
    split
    · rename_i hvalid
      exact hlimits ▸ hvalid
    · trivial
  | fetch caller flow phase =>
    obtain rfl := Option.some.inj hnext
    exact Call.fetchStep_knows hknows
  | reserve p =>
    simp only [Call.step] at hnext
    split at hnext <;> obtain rfl := Option.some.inj hnext <;> trivial
  | acknowledge i status ack =>
    simp only [Call.step] at hnext
    split at hnext <;> obtain rfl := Option.some.inj hnext <;> trivial
  | describeReadback i =>
    obtain rfl := Option.some.inj hnext
    split
    · trivial
    · exact ⟨trivial, trivial⟩
  | readback i =>
    obtain rfl := Option.some.inj hnext
    exact ⟨trivial, trivial⟩
  | commitUnverified i current =>
    obtain rfl := Option.some.inj hnext
    dsimp only
    split <;> trivial
  | commitVerified i status evidence current =>
    obtain rfl := Option.some.inj hnext
    dsimp only
    split <;> trivial
  | staleCheck c drift =>
    simp only [Call.step] at hnext
    split at hnext <;> obtain rfl := Option.some.inj hnext <;> trivial
  | readbackCheck c backend current =>
    obtain rfl := Option.some.inj hnext
    split <;> trivial
  | finalizeCheck c status evidence current =>
    simp only [Call.step] at hnext
    split at hnext
    · obtain rfl := Option.some.inj hnext
      trivial
    · obtain rfl := Option.some.inj hnext
      split <;> trivial
  | withdraw todo reason reply =>
    obtain rfl := Option.some.inj hnext
    exact Call.withdrawing_knows ..
  | rebind todo epoch reply =>
    obtain rfl := Option.some.inj hnext
    unfold Call.rebinding
    split <;> trivial
  | stop =>
    simp only [Call.step] at hnext ⊢
    split at hnext
    · cases hnext
    · -- from here on the coordinator does not run
      rename_i hinit
      obtain rfl := Option.some.inj hnext
      rw [if_neg hinit]
      dsimp only
      split <;> rfl
  | drain =>
    obtain rfl := Option.some.inj hnext
    split <;> exact hknows
  | detach =>
    obtain rfl := Option.some.inj hnext
    exact hknows
  | leave | clear => cases hnext
  | _ =>
    obtain rfl := Option.some.inj hnext
    trivial

end

end Pacing
