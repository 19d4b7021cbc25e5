import PacingFabric.Theorems.Expiry

/-!
# Evidence above the authorized rate

Trusted evidence of a rate above the one the envelope authorizes leaves the attempt
`Mismatched`, whichever operation finalizes it. Withdrawing that effect is the part of each
operation that follows the finalization, outside the lock: `apply_envelope` asks the backend
to revoke the attempt, and the other two return without doing so.

## Main definitions

* `Call.Finalizing`: the step finalizes evidence for a record it finds.
* `Call.Withdraws`: whatever the call meets, it asks the backend to revoke the attempt.

## Main results

* `overRate_withdrawn_iff`: the over-rate effect is recorded, and withdrawn exactly when the
  operation is `apply_envelope`.
* `overRate_left`: a verification that records an over-rate effect and leaves it in place.
-/

namespace Pacing

open Interleaving

namespace Call

/-- The operation of the call is `apply_envelope`, past its readback. -/
def isApply : Call → Bool
  | .commitVerified .. => true
  | _ => false

/-- The backend the call has read back. -/
def reader : Call → Option BackendPtr
  | .commitVerified i _ _ _ => some i.backend
  | .finalizeCheck c _ _ _ => c.backend
  | _ => none

/-- The step finalizes the evidence of `x` for the record `r`. -/
structure Finalizing (f : Fabric) (k : Call) (x : Finalization) (r : ApplicationRecord) :
    Prop where
  finalization : k.finalization = some x
  record : f.attempts.record x.id = some r
  apply : ∀ i status evidence current, k = .commitVerified i status evidence current →
    r.state = .acknowledged ∧ (f.backendPtr r.backend.id).isSome ∧
      (driftAfter i.envelope.authority current).1 = .none

/-- Whatever states and answers the steps of the call meet, it comes to ask `backend` to
revoke the attempt. -/
inductive Withdraws (backend : BackendPtr) (id : AttemptId) : Call → Prop
  | now {k request reason} (asks : k.external = some (.revoke backend request reason))
      (attempt : request.attempt = id) : Withdraws backend id k
  | later {k} (next : Fabric → Answers → Call) (goes : ∀ f a, (step f a k).2 = some (next f a))
      (withdraws : ∀ f a, Withdraws backend id (next f a)) : Withdraws backend id k

theorem not_withdraws_leave (backend : BackendPtr) (id : AttemptId) (reply : Reply) :
    ¬ Withdraws backend id (.leave reply) := by
  intro h
  cases h with
  | now asks _ => cases asks
  | later next goes _ => cases goes {} {}

theorem not_withdraws_report (backend : BackendPtr) (id : AttemptId) (c : Check) :
    ¬ Withdraws backend id (.report c) := by
  intro h
  cases h with
  | now asks _ => cases asks
  | later next goes withdraws =>
    have hleave := Option.some.inj (goes {} {})
    exact not_withdraws_leave backend id _ (hleave ▸ withdraws {} {})

end Call

/-! ### The record -/

section
variable {f : Fabric} {a : Answers} {k : Call}

/-- The record a write leaves under the identity it was found by. -/
theorem AttemptLedger.record_write_found {l : AttemptLedger} {id : AttemptId} {i : ℕ}
    {e : AttemptEntry} (h : l.find id = some (i, e)) (r : ApplicationRecord) :
    (l.write i e r).record id = some r := by
  unfold find at h
  cases hi : l.index id.value with
  | none =>
    rw [hi] at h
    cases h
  | some j =>
    rw [hi] at h
    dsimp only at h
    cases he : l.entries[j]? with
    | none =>
      rw [he] at h
      cases h
    | some e' =>
      rw [he] at h
      dsimp only at h
      split at h
      · rename_i hlive
        obtain ⟨rfl, rfl⟩ : j = i ∧ e' = e := by simpa using h
        obtain ⟨hlt, -⟩ := List.getElem?_eq_some_iff.1 he
        simp [record, find, write, overwrite, hi, hlt, hlive]
      · cases h

/-- A commit leaves its record under the identity it was found by. -/
theorem Fabric.record_commit {id : AttemptId} {i : ℕ} {e : AttemptEntry}
    (h : f.attempts.find id = some (i, e)) (r : ApplicationRecord) (now : Instant) :
    (f.commitRecord a i e r now).attempts.record id = some r :=
  AttemptLedger.record_write_found h r

/-- Trusted evidence above the authorized rate is recorded as such. -/
theorem ApplicationRecord.finalizeEvidence_overRate (r : ApplicationRecord) {cadence : Cadence}
    {evidence : ReadbackEvidence} (hover : evidence.observedRateBps > cadence.rateBps)
    (code : ErrorCode) (now : Instant) :
    (r.finalizeEvidence cadence evidence true code now).state = .mismatched ∧
      (r.finalizeEvidence cadence evidence true code now).reason = .ceilingExceeded := by
  have hne : (evidence.observedRateBps == cadence.rateBps) = false := by
    rw [beq_eq_false_iff_ne]
    rintro heq
    rw [heq] at hover
    exact UInt64.lt_irrefl _ hover
  have hmatches : (r.withEvidence evidence).matches_ cadence evidence = false := by
    simp [matches_, hne]
  unfold finalizeEvidence
  simp only [Bool.not_true, Bool.false_eq_true, if_false, hmatches]
  rw [if_pos hover]
  exact ⟨rfl, rfl⟩

/-! ### The three operations -/

variable {x : Finalization} {r : ApplicationRecord}

/-- The last section of `apply_envelope` records the effect and asks for its withdrawal. -/
theorem Fabric.commitVerified_overRate {attempt : AttemptId} {envelope : PacingEnvelope}
    {status : Status} {evidence : ReadbackEvidence} {now : Instant} {code : ErrorCode}
    (hr : f.attempts.record attempt = some r) (hstate : r.state = .acknowledged)
    (hback : (f.backendPtr r.backend.id).isSome) (htrusted : evidence.trusted status = true)
    (hover : evidence.observedRateBps > envelope.cadence.rateBps) :
    (∃ r', (f.commitVerified a now attempt envelope status evidence .none
        code).2.attempts.record attempt = some r' ∧
      r'.state = .mismatched ∧ r'.reason = .ceilingExceeded) ∧
      (f.commitVerified a now attempt envelope status evidence .none code).1.withdraw =
        some "readback exceeded the authorized ceiling" := by
  obtain ⟨⟨j, e⟩, hfind, rfl⟩ := Option.map_eq_some_iff.1 hr
  obtain ⟨b, hb⟩ := Option.isSome_iff_exists.1 hback
  obtain ⟨hmismatched, hreason⟩ := e.record.finalizeEvidence_overRate hover
    (evidence.refusal status) now
  unfold commitVerified
  rw [hfind]
  dsimp only at hstate hb ⊢
  rw [if_neg (not_not_intro hstate), hb]
  simp only [Option.isNone_some, Bool.false_eq_true, if_false, ne_eq, not_true_eq_false,
    htrusted]
  exact ⟨⟨_, record_commit hfind .., hmismatched, hreason⟩, if_pos ⟨hmismatched, hover⟩⟩

/-- The finalizing section of `verify_attempt` and `revalidate` records the effect, and the
call asks no backend for anything any more. -/
theorem Call.finalizeCheck_overRate {c : Check} {status : Status} {evidence : ReadbackEvidence}
    {current : AuthorityInputs} (hr : f.attempts.record c.id = some r)
    (htrusted : evidence.trusted status = true)
    (hover : evidence.observedRateBps > c.envelope.cadence.rateBps) :
    (∃ r', (step f a (.finalizeCheck c status evidence current)).1.attempts.record c.id =
        some r' ∧ r'.state = .mismatched ∧ r'.reason = .ceilingExceeded) ∧
      ∀ k' b, (step f a (.finalizeCheck c status evidence current)).2 = some k' →
        ¬ Withdraws b c.id k' := by
  obtain ⟨⟨j, e⟩, hfind, rfl⟩ := Option.map_eq_some_iff.1 hr
  have hfinal := fun code => e.record.finalizeEvidence_overRate hover code c.now
  cases hk : c.kind with
  | verify =>
    simp only [step, hk, Fabric.finalizeVerify, hfind, htrusted]
    refine ⟨⟨_, Fabric.record_commit hfind .., hfinal _⟩, fun k' b hk' => ?_⟩
    obtain rfl := Option.some.inj hk'
    exact not_withdraws_leave b _ _
  | revalidate =>
    simp only [step, hk, Fabric.finalizeRevalidate, hfind]
    refine ⟨⟨_, Fabric.record_commit hfind .., hfinal _⟩, fun k' b hk' => ?_⟩
    obtain rfl := Option.some.inj hk'
    exact not_withdraws_report b _ _

/-- In every state and for every answer: trusted evidence above the authorized rate leaves
the attempt `Mismatched` with `CeilingExceeded`, and the operation withdraws it from the
backend it has read back if and only if it is `apply_envelope`. -/
theorem overRate_withdrawn_iff (h : k.Finalizing f x r)
    (htrusted : x.evidence.trusted x.status = true)
    (hover : x.evidence.observedRateBps > x.envelope.cadence.rateBps) :
    (∃ r', (Call.step f a k).1.attempts.record x.id = some r' ∧ r'.state = .mismatched ∧
      r'.reason = .ceilingExceeded) ∧
      ((∃ b k', k.reader = some b ∧ (Call.step f a k).2 = some k' ∧
        Call.Withdraws b x.id k') ↔ k.isApply = true) := by
  have hx := h.finalization
  cases k with
  | commitVerified i status evidence current =>
    obtain rfl := Option.some.inj hx
    obtain ⟨hstate, hback, hcurrent⟩ := h.apply _ _ _ _ rfl
    have hcommit := @Fabric.commitVerified_overRate f a r i.request.attempt i.envelope status
      evidence i.now (driftAfter i.envelope.authority current).2 h.record hstate hback htrusted
      hover
    obtain ⟨hrecord, hwithdraw⟩ := hcommit
    simp only [Call.step, hcurrent]
    refine ⟨hrecord, iff_of_true ⟨i.backend, _, rfl, rfl, ?_⟩ rfl⟩
    rw [hwithdraw]
    exact .now rfl rfl
  | finalizeCheck c status evidence current =>
    obtain rfl := Option.some.inj hx
    obtain ⟨hrecord, hleaves⟩ := @Call.finalizeCheck_overRate f a r c status evidence current
      h.record htrusted hover
    refine ⟨hrecord, iff_of_false ?_ Bool.false_ne_true⟩
    rintro ⟨b, k', -, hk', hwithdraws⟩
    exact hleaves k' b hk' hwithdraws
  | _ => cases hx

end

namespace Scenario

/-- The backend reports twice the rate it was given. -/
def fast : Answers := { answers with evidence := { evidence with observedRateBps := 16000000 } }

/-- An apply as far as the section that finalizes its evidence. -/
def applyingFast : List (Action Request Answers) :=
  setup ++ .start 0 (.applyEnvelope ⟨⟨1⟩, ⟨1⟩⟩ ⟨1⟩ {}) :: List.replicate 19 (.move 0 fast)

/-- An attempt that is applied without evidence, and a verification of it as far as the
section that finalizes its evidence. -/
def verifyingFast : List (Action Request Answers) :=
  setup ++
    .start 0 (.applyEnvelope ⟨⟨1⟩, ⟨1⟩⟩ ⟨1⟩ {}) ::
      List.replicate 21 (.move 0 { answers with evidence := {} }) ++
    .start 0 (.verifyAttempt ⟨1⟩) :: List.replicate 10 (.move 0 fast)

/-- The call is about to finalize trusted evidence above the authorized rate. -/
def overRate (f : Fabric) : Option Call → Bool
  | some (.commitVerified i status evidence current) =>
    (f.attempts.record i.request.attempt).any (fun r =>
      r.state == .acknowledged && (f.backendPtr r.backend.id).isSome) &&
    (driftAfter i.envelope.authority current).1 == .none &&
    evidence.trusted status && decide (evidence.observedRateBps > i.envelope.cadence.rateBps)
  | some (.finalizeCheck c status evidence _) =>
    (f.attempts.record c.id).isSome && evidence.trusted status &&
    decide (evidence.observedRateBps > c.envelope.cadence.rateBps)
  | _ => false

theorem of_overRate {f : Fabric} {o : Option Call} (h : overRate f o = true) :
    ∃ k x r, o = some k ∧ k.Finalizing f x r ∧ x.evidence.trusted x.status = true ∧
      x.evidence.observedRateBps > x.envelope.cadence.rateBps := by
  unfold overRate at h
  split at h
  · rename_i i status evidence current
    simp only [Bool.and_eq_true, Option.any_eq_true, beq_iff_eq, decide_eq_true_eq] at h
    obtain ⟨⟨⟨⟨r, hr, hstate, hback⟩, hcurrent⟩, htrusted⟩, hover⟩ := h
    refine ⟨_, _, r, rfl, ⟨rfl, hr, ?_⟩, htrusted, hover⟩
    intro i' status' evidence' current' hk
    obtain ⟨rfl, rfl, rfl, rfl⟩ := Call.commitVerified.inj hk
    exact ⟨hstate, hback, hcurrent⟩
  · rename_i c status evidence current
    simp only [Bool.and_eq_true, Option.isSome_iff_exists, decide_eq_true_eq] at h
    obtain ⟨⟨⟨r, hr⟩, htrusted⟩, hover⟩ := h
    exact ⟨_, _, r, rfl, ⟨rfl, hr, fun _ _ _ _ hk => by cases hk⟩, htrusted, hover⟩
  · cases h

end Scenario

/-- An apply that reads back twice the authorized rate. -/
theorem overRate_withdrawn_apply :
    ∃ (w : World) (k : Call) (x : Finalization),
      w = coordinator.exec Scenario.started Scenario.applyingFast ∧ w.calls 0 = some k ∧
      k.isApply = true ∧
      (∃ r', (Call.step w.shared Scenario.answers k).1.attempts.record x.id = some r' ∧
        r'.state = .mismatched ∧ r'.reason = .ceilingExceeded) ∧
      ∃ b k', k.reader = some b ∧ (Call.step w.shared Scenario.answers k).2 = some k' ∧
        Call.Withdraws b x.id k' := by
  have happly : ((coordinator.exec Scenario.started Scenario.applyingFast).calls 0).any
      Call.isApply = true := by decide +kernel
  obtain ⟨k, x, r, hcall, hfinalizing, htrusted, hover⟩ := @Scenario.of_overRate
    (coordinator.exec Scenario.started Scenario.applyingFast).shared
    ((coordinator.exec Scenario.started Scenario.applyingFast).calls 0) (by decide +kernel)
  rw [hcall, Option.any_some] at happly
  obtain ⟨hrecord, hwithdrawn⟩ :=
    @overRate_withdrawn_iff _ Scenario.answers _ _ _ hfinalizing htrusted hover
  exact ⟨_, k, x, rfl, hcall, happly, hrecord, hwithdrawn.2 happly⟩

/-- A verification that reads back twice the authorized rate returns and withdraws nothing. -/
theorem overRate_left :
    ∃ (config : FabricConfig) (disk : Disk) (a : Answers) (w : World) (n : ℕ) (k : Call)
      (x : Finalization) (r : ApplicationRecord),
      ((Fabric.construct config disk).initializeFabric a).1.isOk = true ∧
      Run coordinator withinIncarnation
        (.idle ((Fabric.construct config disk).initializeFabric a).2) n w ∧
      w.calls 0 = some k ∧ k.Finalizing w.shared x r ∧
      x.evidence.trusted x.status = true ∧
      x.evidence.observedRateBps > x.envelope.cadence.rateBps ∧
      ∀ b k', (Call.step w.shared a k).2 = some k' → ¬ Call.Withdraws b x.id k' := by
  obtain ⟨n, hn⟩ := coordinator.run_exec Scenario.started Scenario.verifyingFast
  have hcheck : ((coordinator.exec Scenario.started Scenario.verifyingFast).calls 0).any
      (fun k => !k.isApply) = true := by decide +kernel
  obtain ⟨k, x, r, hcall, hfinalizing, htrusted, hover⟩ := @Scenario.of_overRate
    (coordinator.exec Scenario.started Scenario.verifyingFast).shared
    ((coordinator.exec Scenario.started Scenario.verifyingFast).calls 0) (by decide +kernel)
  rw [hcall, Option.any_some] at hcheck
  generalize coordinator.exec Scenario.started Scenario.verifyingFast = w at *
  refine ⟨Scenario.config, {}, Scenario.answers, w, n, k, x, r, by decide +kernel, hn, hcall,
    hfinalizing, htrusted, hover, fun b k' hk' => ?_⟩
  have hx := hfinalizing.finalization
  cases k with
  | finalizeCheck c status evidence current =>
    obtain rfl := Option.some.inj hx
    exact (Call.finalizeCheck_overRate hfinalizing.record htrusted hover).2 k' b hk'
  | commitVerified i status evidence current => cases hcheck
  | _ => cases hx

end Pacing
