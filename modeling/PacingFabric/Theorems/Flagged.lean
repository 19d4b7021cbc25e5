import PacingFabric.Theorems.Handles
import PacingFabric.Theorems.OverRate
import PacingFabric.Theorems.Pending

/-!
# The revalidation flag

An attempt whose pacing could not be confirmed carries a flag. `revalidate` clears it only when
trusted evidence matches; `verify_attempt` finalizes whatever it reads back, and the transition
it ends in clears the flag on a mismatch and without any evidence. While an applied attempt is
flagged it no longer claims its effect, and `fence_below` withdraws what is claimed.

## Main definitions

* `Fabric.Clears`: the flag of an attempt goes, and its pacing may still be installed.
* `Call.Confirms`: the call finalizes trusted evidence that matches.
* `Call.Forgets`: a verification finalizes anything else for a flagged attempt.
* `Fabric.Unclaimed`: an attempt a fence closes without withdrawing it.

## Main results

* `cleared_on_match_iff`: flags go on a match alone exactly when no verification forgets.
* `fenced_withdrawn_iff`: a fence withdraws all it closes exactly when none is unclaimed.
-/

namespace Pacing

open Interleaving

/-- The flag of an attempt is cleared while its pacing may be installed before and after. -/
def Fabric.Clears (f f' : Fabric) (id : AttemptId) : Prop :=
  ∃ r r', f.attempts.record id = some r ∧ f'.attempts.record id = some r' ∧
    r.requiresRevalidation = true ∧ r'.requiresRevalidation = false ∧
    r.state.mayHoldEffect = true ∧ r'.state.mayHoldEffect = true

namespace Call

/-- The call is about to finalize a present, intact readback of the attempt that matches the
cadence of its envelope. -/
def Confirms (f : Fabric) (id : AttemptId) (k : Call) : Prop :=
  ∃ c status evidence current r, k = .finalizeCheck c status evidence current ∧ c.id = id ∧
    f.attempts.record id = some r ∧ status.isOk = true ∧ evidence.present = true ∧
    evidence.integrityOk = true ∧ r.matches_ c.envelope.cadence evidence = true

/-- The call is a verification about to finalize evidence that is missing, damaged or different
from the cadence, for a flagged attempt whose pacing may be installed. -/
def Forgets (f : Fabric) (k : Call) : Prop :=
  ∃ c status evidence current r, k = .finalizeCheck c status evidence current ∧
    c.kind = .verify ∧ f.attempts.record c.id = some r ∧ r.requiresRevalidation = true ∧
    r.state.mayHoldEffect = true ∧
    ¬ (evidence.trusted status = true ∧ r.matches_ c.envelope.cadence evidence = true)

/-- A revalidation that finalizes has trusted evidence. -/
def Sifted (k : Call) : Prop :=
  ∀ c status evidence current, k = .finalizeCheck c status evidence current →
    c.kind = .revalidate → evidence.trusted status = true

theorem sifted_begin (request : Request) : (begin request).Sifted := by
  intro c status evidence current h
  cases request <;> cases h

theorem step_sifted {f : Fabric} {a : Answers} {k k' : Call} (hk' : (step f a k).2 = some k') :
    k'.Sifted := by
  intro c status evidence current hfinal
  obtain ⟨b, -, -, -, hrevalidate⟩ :=
    (step_carries k hk').finalizes c status evidence current hfinal
  exact hrevalidate

end Call

/-- Every call in flight is sifted, whatever the fabric. -/
def sifting : Outline Fabric Call where
  shared _ := True
  assertion _ k := k.Sifted
  apart _ _ := True

theorem sifting_stable : sifting.Stable coordinator anyStep where
  begins _ _ r _ _ _ := ⟨Call.sifted_begin r, fun _ _ _ => ⟨trivial, trivial⟩⟩
  locally _ _ _ _ _ _ _ := ⟨trivial, fun _ hk' => Call.step_sifted hk'⟩
  interference _ _ _ _ j l hc _ _ _ hl := ⟨hc.assertion j l hl, fun _ _ => ⟨trivial, trivial⟩⟩
  restarts _ _ _ _ _ := trivial

theorem ReadbackEvidence.trusted_iff {evidence : ReadbackEvidence} {status : Status} :
    evidence.trusted status = true ↔
      status.isOk = true ∧ evidence.present = true ∧ evidence.integrityOk = true := by
  unfold trusted
  rw [Bool.and_eq_true, Bool.and_eq_true, and_assoc]

section
variable {f : Fabric} {a : Answers} {k : Call} {k' : Option Call} {r r' : ApplicationRecord}

/-- No move but a finalization clears the flag of an attempt whose pacing may be installed; a
revalidation clears it on a match. -/
theorem RecordStep.clears (h : RecordStep f a k k' (some r) (some r'))
    (hflag : r.requiresRevalidation = true) (hcleared : r'.requiresRevalidation = false)
    (hheld : r.state.mayHoldEffect = true) (hholds : r'.state.mayHoldEffect = true) :
    ∃ c status evidence current, k = .finalizeCheck c status evidence current ∧
      r.attempt = c.id ∧
      (c.kind = .revalidate → r.matches_ c.envelope.cadence evidence = true) := by
  -- a record in flight holds no pacing before, a withdrawn one holds none after
  cases h with
  | keep =>
    rw [hcleared] at hflag
    cases hflag
  | flagged => cases hcleared
  | refused _ hs | acknowledged _ hs | driftedUnverified _ hs | driftedVerified _ hs
  | unverified _ hs | verified _ hs =>
    rw [hs] at hheld
    cases hheld
  | stale | revoked | fenced | epochFenced => cases hholds
  | cancelled =>
    unfold Fabric.cancelledRecord at hholds
    split at hholds <;> cases hholds
  | unconfirmed => cases hcleared
  | finalizedVerify named kind =>
    refine ⟨_, _, _, _, rfl, named, fun hkind => ?_⟩
    rw [kind] at hkind
    cases hkind
  | @finalizedRevalidate c _ evidence _ _ _ named kind =>
    refine ⟨_, _, _, _, rfl, named, fun _ => ?_⟩
    -- the flag is set again unless the attempt was applied, which takes a match
    have hstate := r.finalizeEvidence_state c.envelope.cadence evidence true .ok c.now
    have happlied : (r.finalizeEvidence c.envelope.cadence evidence true .ok c.now).state =
        .applied := by simpa [ApplicationRecord.revalidated] using hcleared
    rw [happlied, if_neg (by simp)] at hstate
    by_contra hmatches
    change ¬ (r.withEvidence evidence).matches_ c.envelope.cadence evidence = true at hmatches
    rw [if_neg hmatches] at hstate
    cases hstate

/-- Finalizing evidence clears the flag, whatever the evidence is. -/
theorem ApplicationRecord.finalizeEvidence_clears (r : ApplicationRecord) (cadence : Cadence)
    (evidence : ReadbackEvidence) (readbackOk : Bool) (code : ErrorCode) (now : Instant) :
    (r.finalizeEvidence cadence evidence readbackOk code now).requiresRevalidation = false ∧
      (r.finalizeEvidence cadence evidence readbackOk code now).state.mayHoldEffect = true := by
  unfold finalizeEvidence
  dsimp only
  split_ifs <;> exact ⟨rfl, rfl⟩

/-- A verification leaves the record finalized. -/
theorem Call.verify_record {c : Check} {status : Status} {evidence : ReadbackEvidence}
    (hkind : c.kind = .verify) (hr : f.attempts.record c.id = some r) (a : Answers)
    (current : AuthorityInputs) :
    (step f a (.finalizeCheck c status evidence current)).1.attempts.record c.id =
      some (r.finalizeEvidence c.envelope.cadence evidence (evidence.trusted status)
        (evidence.refusal status) c.now) := by
  obtain ⟨⟨j, e⟩, hfind, rfl⟩ := Option.map_eq_some_iff.1 hr
  simp only [step, hkind, Fabric.finalizeVerify, hfind]
  exact Fabric.record_commit hfind ..

/-- A verification that forgets clears the flag on what confirms nothing. -/
theorem Call.Forgets.clears (h : k.Forgets f) (a : Answers) :
    ∃ id, f.Clears (step f a k).1 id ∧ ¬ k.Confirms f id := by
  obtain ⟨c, status, evidence, current, r, rfl, hkind, hr, hflag, hheld, hno⟩ := h
  obtain ⟨hcleared, hholds⟩ := r.finalizeEvidence_clears c.envelope.cadence evidence
    (evidence.trusted status) (evidence.refusal status) c.now
  refine ⟨c.id, ⟨r, _, hr, verify_record hkind hr a current, hflag, hcleared, hheld, hholds⟩, ?_⟩
  rintro ⟨c', status', evidence', current', r', heq, -, hr', hok, hpresent, hintact, hmatches⟩
  obtain ⟨rfl, rfl, rfl, rfl⟩ := finalizeCheck.inj heq
  obtain rfl := Option.some.inj (hr.symm.trans hr')
  exact hno ⟨ReadbackEvidence.trusted_iff.2 ⟨hok, hpresent, hintact⟩, hmatches⟩

/-- In every reachable world, whatever call moves: flags are cleared on trusted matching
evidence alone exactly when the call is not a verification that forgets one. -/
theorem cleared_on_match_iff {w : World} {i : ℕ} (h : w.Reachable) (hk : w.calls i = some k)
    (a : Answers) :
    (∀ id, w.shared.Clears (Call.step w.shared a k).1 id → k.Confirms w.shared id) ↔
      ¬ k.Forgets w.shared := by
  constructor
  · intro hclears hforgets
    obtain ⟨id, hcleared, hno⟩ := hforgets.clears a
    exact hno (hclears id hcleared)
  · rintro hremembers id ⟨r, r', hr, hr', hflag, hcleared, hheld, hholds⟩
    have hmove := (Call.step_moves h.counted.wellFormed a k).record id
    rw [hr, hr'] at hmove
    obtain ⟨c, status, evidence, current, rfl, hid, hmatches⟩ :=
      hmove.clears hflag hcleared hheld hholds
    rw [h.counted.wellFormed.record_attempt hr] at hid
    subst hid
    obtain ⟨n, hrun⟩ := h
    have hsifted := (sifting_stable.holds (Outline.holds_idle trivial) hrun).assertion i _ hk
    -- a revalidation gets as far as the last section on trusted evidence only
    have hconfirmed : evidence.trusted status = true ∧
        r.matches_ c.envelope.cadence evidence = true := by
      cases hkind : c.kind with
      | verify =>
        by_contra hno
        exact hremembers ⟨c, status, evidence, current, r, rfl, hkind, hr, hflag, hheld, hno⟩
      | revalidate =>
        exact ⟨hsifted c status evidence current rfl hkind, hmatches hkind⟩
    obtain ⟨hok, hpresent, hintact⟩ := ReadbackEvidence.trusted_iff.1 hconfirmed.1
    exact ⟨c, status, evidence, current, r, rfl, rfl, hr, hok, hpresent, hintact, hconfirmed.2⟩

end

namespace Scenario

/-- An attempt applied without evidence, which a revalidation has not confirmed either, and a
second check of it as far as the section that finalizes its evidence. -/
def flaggedThen (request : Request) (a : Answers) : List (Action Request Answers) :=
  appliedSilently ++ silently (.revalidate ⟨1⟩) 12 ++
    .start 0 request :: List.replicate 10 (.move 0 a)

/-- The call is about to finalize evidence for the flagged first attempt. -/
def finalizing (kind : CheckKind) (confirmed : Bool) (w : World) : Bool :=
  match w.calls 0 with
  | some (.finalizeCheck c status evidence _) =>
    c.kind == kind && (w.shared.attempts.record c.id).any fun r =>
      r.requiresRevalidation && r.state.mayHoldEffect &&
        (evidence.trusted status && r.matches_ c.envelope.cadence evidence) == confirmed
  | _ => false

theorem of_finalizing {kind : CheckKind} {confirmed : Bool} {w : World}
    (h : finalizing kind confirmed w = true) :
    ∃ c status evidence current r, w.calls 0 = some (.finalizeCheck c status evidence current) ∧
      c.kind = kind ∧ w.shared.attempts.record c.id = some r ∧ r.requiresRevalidation = true ∧
      r.state.mayHoldEffect = true ∧
      (evidence.trusted status && r.matches_ c.envelope.cadence evidence) = confirmed := by
  unfold finalizing at h
  split at h
  · rename_i c status evidence current hcall
    simp only [Bool.and_eq_true, Option.any_eq_true, beq_iff_eq] at h
    obtain ⟨hkind, r, hr, ⟨hflag, hheld⟩, hconfirmed⟩ := h
    exact ⟨c, status, evidence, current, r, hcall, hkind, hr, hflag, hheld, hconfirmed⟩
  · cases h

theorem reachable_flaggedThen (request : Request) (a : Answers) :
    World.Reachable (coordinator.exec started (flaggedThen request a)) := by
  obtain ⟨n, hn⟩ := coordinator.run_exec started (flaggedThen request a)
  exact @run_started anyStep trivial _ _ (hn.mono fun _ _ _ => trivial)

end Scenario

/-- A verification that has read the cadence back clears the flag, and confirms the attempt. -/
theorem cleared_on_match_verified :
    ∃ (w : World) (k : Call) (id : AttemptId), w.Reachable ∧ w.calls 0 = some k ∧
      w.shared.Clears (Call.step w.shared Scenario.genuine k).1 id ∧ k.Confirms w.shared id := by
  have hreachable := Scenario.reachable_flaggedThen (.verifyAttempt ⟨1⟩) Scenario.genuine
  obtain ⟨c, status, evidence, current, r, hcall, hkind, hr, hflag, hheld, hconfirmed⟩ :=
    @Scenario.of_finalizing .verify true (coordinator.exec Scenario.started
      (Scenario.flaggedThen (.verifyAttempt ⟨1⟩) Scenario.genuine)) (by decide +kernel)
  have hremembers : ¬ (Call.finalizeCheck c status evidence current).Forgets
      (coordinator.exec Scenario.started
        (Scenario.flaggedThen (.verifyAttempt ⟨1⟩) Scenario.genuine)).shared := by
    rintro ⟨c', status', evidence', current', r', heq, -, hr', -, -, hno⟩
    obtain ⟨rfl, rfl, rfl, rfl⟩ := Call.finalizeCheck.inj heq
    obtain rfl := Option.some.inj (hr.symm.trans hr')
    exact hno (Bool.and_eq_true_iff.1 hconfirmed)
  obtain ⟨hcleared, hholds⟩ := r.finalizeEvidence_clears c.envelope.cadence evidence
    (evidence.trusted status) (evidence.refusal status) c.now
  have hclears : Fabric.Clears _ _ c.id := ⟨r, _, hr,
    Call.verify_record hkind hr Scenario.genuine current, hflag, hcleared, hheld, hholds⟩
  exact ⟨_, _, c.id, hreachable, hcall, hclears,
    (cleared_on_match_iff hreachable hcall Scenario.genuine).2 hremembers c.id hclears⟩

/-- A verification that has read nothing back clears the flag. -/
theorem cleared_on_nothing :
    ∃ (w : World) (k : Call) (id : AttemptId), w.Reachable ∧ w.calls 0 = some k ∧
      w.shared.Clears (Call.step w.shared Scenario.silent k).1 id ∧ ¬ k.Confirms w.shared id := by
  obtain ⟨c, status, evidence, current, r, hcall, hkind, hr, hflag, hheld, hnot⟩ :=
    @Scenario.of_finalizing .verify false (coordinator.exec Scenario.started
      (Scenario.flaggedThen (.verifyAttempt ⟨1⟩) Scenario.silent)) (by decide +kernel)
  have hforgets : (Call.finalizeCheck c status evidence current).Forgets
      (coordinator.exec Scenario.started
        (Scenario.flaggedThen (.verifyAttempt ⟨1⟩) Scenario.silent)).shared := by
    refine ⟨c, status, evidence, current, r, rfl, hkind, hr, hflag, hheld, fun hboth => ?_⟩
    rw [hboth.1, hboth.2] at hnot
    cases hnot
  obtain ⟨id, hclears, hno⟩ := hforgets.clears Scenario.silent
  exact ⟨_, _, id, Scenario.reachable_flaggedThen _ _, hcall, hclears, hno⟩

/-! ### What a fence withdraws -/

namespace Call

variable {b : BackendPtr} {id : AttemptId}

/-- A call that withdraws comes to ask for everything on its list, and for nothing else. -/
theorem withdraws_withdrawing {todo : List Withdrawal} {reason : Bytes} {reply : Reply} :
    Withdraws b id (withdrawing todo reason reply) ↔
      ∃ request, (b, request) ∈ todo ∧ request.attempt = id := by
  induction todo with
  | nil =>
    refine iff_of_false (not_withdraws_leave b id reply) ?_
    rintro ⟨request, hmem, -⟩
    cases hmem
  | cons x rest ih =>
    obtain ⟨backend, asked⟩ := x
    have hstep : ∀ f a, (step f a (withdrawing ((backend, asked) :: rest) reason reply)).2 =
        some (withdrawing rest reason reply) := fun _ _ => rfl
    constructor
    · intro h
      cases h with
      | now asks attempt =>
        obtain ⟨rfl, rfl, rfl⟩ := External.revoke.inj (Option.some.inj asks)
        exact ⟨_, List.mem_cons_self, attempt⟩
      | later next goes withdraws =>
        have hnext := Option.some.inj ((hstep {} {}).symm.trans (goes {} {}))
        obtain ⟨request, hmem, hattempt⟩ := ih.1 (hnext ▸ withdraws {} {})
        exact ⟨request, List.mem_cons_of_mem _ hmem, hattempt⟩
    · rintro ⟨request, hmem, hattempt⟩
      rcases List.mem_cons.1 hmem with heq | hmem
      · obtain ⟨rfl, rfl⟩ := Prod.mk.inj heq
        exact .now rfl hattempt
      · exact .later _ hstep fun _ _ => ih.2 ⟨request, hmem, hattempt⟩

end Call

/-- The states in which a backend may be pacing an attempt below its epoch. -/
def ApplicationState.mayPace : ApplicationState → Bool
  | .applied | .appliedUnverified | .mismatched => true
  | _ => false

/-- An applied attempt below the epoch that is flagged, with its backend registered. -/
def Fabric.Unclaimed (f : Fabric) (epoch : Epoch) : Prop :=
  ∃ id r, f.attempts.record id = some r ∧ r.authority.epoch.value < epoch.value ∧
    r.state = .applied ∧ r.requiresRevalidation = true ∧ (f.backendPtr r.backend.id).isSome

section
variable {f : Fabric} {a : Answers} {epoch : Epoch} {now : Instant} {id : AttemptId}
  {r : ApplicationRecord}

/-- An epoch that something is below is not the invalid one. -/
theorem Epoch.valid_of_lt {e : Epoch} (h : e.value < epoch.value) : epoch.valid = true := by
  unfold Epoch.valid
  rw [bne_iff_ne]
  rintro hzero
  rw [hzero] at h
  exact UInt64.not_lt_zero h

theorem step_fenceBelow (hrunning : f.running = true) (hvalid : epoch.valid = true) :
    Call.step f a (.locked (.fenceBelow epoch) now) =
      ((f.fenceEnvelopes epoch "fenced by coordinator epoch").fenceAttempts a now epoch
          "fenced by coordinator epoch",
        some (Call.withdrawing (f.fenceWithdrawals epoch now) "fenced by coordinator epoch"
          (.status .success))) := by
  simp only [Call.step, Call.lockedStep, Fabric.fenceBelow, hrunning, hvalid, Bool.not_true,
    Bool.false_eq_true, if_false]
  rfl

/-- A fence closes every attempt below its epoch that is not settled. -/
theorem fenced_below (h : f.attempts.WellFormed) (hrunning : f.running = true)
    (hr : f.attempts.record id = some r) (hbelow : r.authority.epoch.value < epoch.value)
    (hunsettled : r.state.isSettled = false) :
    ∃ r', (Call.step f a (.locked (.fenceBelow epoch) now)).1.attempts.record id = some r' ∧
      r'.state = .fenced := by
  obtain ⟨⟨j, e⟩, hfind, rfl⟩ := Option.map_eq_some_iff.1 hr
  have hvalid : epoch.valid = true := Epoch.valid_of_lt hbelow
  have hfences : Fabric.fences epoch e = true := (fences_iff h hfind epoch).2 ⟨hbelow, hunsettled⟩
  rw [step_fenceBelow hrunning hvalid]
  dsimp only
  rw [(fenceAttempts_record (f := f.fenceEnvelopes epoch "fenced by coordinator epoch") h now
    epoch "fenced by coordinator epoch").2 id]
  change ∃ r', (f.attempts.find id).map _ = some r' ∧ _
  rw [hfind]
  refine ⟨_, rfl, ?_⟩
  unfold fencedEntry
  dsimp only
  rw [if_pos hfences]
  rfl

/-- What a fence asks the backends to withdraw. -/
theorem fence_withdraws_iff (h : f.attempts.WellFormed) (hrunning : f.running = true)
    (hr : f.attempts.record id = some r) (hbelow : r.authority.epoch.value < epoch.value)
    {b : BackendPtr} (hb : f.backendPtr r.backend.id = some b)
    (hpaces : r.state.mayPace = true) :
    (∃ k', (Call.step f a (.locked (.fenceBelow epoch) now)).2 = some k' ∧
      Call.Withdraws b id k') ↔ ¬ (r.state = .applied ∧ r.requiresRevalidation = true) := by
  obtain ⟨⟨j, e⟩, hfind, rfl⟩ := Option.map_eq_some_iff.1 hr
  obtain ⟨hj, hid⟩ := h.find_eq_some_iff.1 hfind
  have hvalid : epoch.valid = true := Epoch.valid_of_lt hbelow
  dsimp only at hbelow hb hpaces hid ⊢
  rw [step_fenceBelow hrunning hvalid]
  dsimp only
  constructor
  · rintro ⟨k', hk', hwithdraws⟩ ⟨happlied, hflag⟩
    obtain rfl := Option.some.inj hk'
    obtain ⟨request, hmem, hattempt⟩ := Call.withdraws_withdrawing.1 hwithdraws
    obtain ⟨e', he', hfences, heffect, -, rfl⟩ := mem_fenceWithdrawals.1 hmem
    -- the entry that was withdrawn is the one of the attempt
    obtain ⟨j', hj'⟩ := List.mem_iff_getElem?.1 he'
    have hfind' := h.find_eq_some_iff.2 ⟨hj', hattempt⟩
    obtain ⟨rfl, rfl⟩ := Prod.mk.inj (Option.some.inj (hfind.symm.trans hfind'))
    rw [ApplicationRecord.claimsEffect, hflag, happlied] at heffect
    rcases heffect with heffect | heffect | heffect <;> cases heffect
  · intro hclaims
    have heffect : e.record.claimsEffect = true ∨ e.record.state = .appliedUnverified ∨
        e.record.state = .mismatched := by
      unfold ApplicationRecord.claimsEffect
      cases hstate : e.record.state with
      | applied =>
        left
        cases hflag : e.record.requiresRevalidation with
        | true => exact absurd ⟨hstate, hflag⟩ hclaims
        | false => rfl
      | appliedUnverified => exact .inr (.inl rfl)
      | mismatched => exact .inr (.inr rfl)
      | _ =>
        rw [hstate] at hpaces
        cases hpaces
    -- a state that may pace is not settled
    have hfences : Fabric.fences epoch e = true := by
      refine (fences_iff h hfind epoch).2 ⟨hbelow, ?_⟩
      revert hpaces
      cases e.record.state <;> first | exact fun _ => rfl | exact fun h => nomatch h
    refine ⟨_, rfl, Call.withdraws_withdrawing.2 ⟨_, mem_fenceWithdrawals.2
      ⟨e, List.mem_of_getElem? hj, hfences, heffect, hb, rfl⟩, hid⟩⟩

/-- In every reachable world, a fence that runs closes every attempt below its epoch that is not
settled, and asks the backends to withdraw all of those they may be pacing exactly when no
applied one is flagged. -/
theorem fenced_withdrawn_iff {w : World} (h : w.Reachable) (hrunning : w.shared.running = true)
    (a : Answers) (epoch : Epoch) (now : Instant) :
    (∀ id r, w.shared.attempts.record id = some r → r.authority.epoch.value < epoch.value →
      r.state.isSettled = false → ∃ r', (Call.step w.shared a
        (.locked (.fenceBelow epoch) now)).1.attempts.record id = some r' ∧
          r'.state = .fenced) ∧
    ((∀ id r b, w.shared.attempts.record id = some r → r.authority.epoch.value < epoch.value →
      r.state.mayPace = true → w.shared.backendPtr r.backend.id = some b →
      ∃ k', (Call.step w.shared a (.locked (.fenceBelow epoch) now)).2 = some k' ∧
        Call.Withdraws b id k') ↔ ¬ w.shared.Unclaimed epoch) := by
  have hwf := h.counted.wellFormed
  refine ⟨fun id r hr hbelow hunsettled => fenced_below hwf hrunning hr hbelow hunsettled, ?_⟩
  constructor
  · rintro hall ⟨id, r, hr, hbelow, happlied, hflag, hb⟩
    obtain ⟨b, hb⟩ := Option.isSome_iff_exists.1 hb
    have hpaces : r.state.mayPace = true := by
      rw [happlied]
      rfl
    exact (fence_withdraws_iff hwf hrunning hr hbelow hb hpaces).1
      (hall id r b hr hbelow hpaces hb) ⟨happlied, hflag⟩
  · intro hclaimed id r b hr hbelow hpaces hb
    refine (fence_withdraws_iff hwf hrunning hr hbelow hb hpaces).2 ?_
    rintro ⟨happlied, hflag⟩
    exact hclaimed ⟨id, r, hr, hbelow, happlied, hflag, Option.isSome_iff_exists.2 ⟨b, hb⟩⟩

end

namespace Scenario

/-- An attempt applied on a matching readback, which a revalidation did not confirm since. -/
def appliedFlagged : List (Action Request Answers) :=
  silently (.publishPolicy policy) 4 ++ silently (.bindFlow binding) 4 ++
    silently (.registerBackend (some {})) 6 ++ silently (.deriveEnvelope ⟨1⟩) 11 ++
    .start 0 (.applyEnvelope ⟨⟨1⟩, ⟨1⟩⟩ ⟨1⟩ {}) :: List.replicate 21 (.move 0 genuine) ++
    silently (.revalidate ⟨1⟩) 12

/-- The first attempt is of the first epoch and may be paced by a registered backend. -/
def pacing (state : ApplicationState) (flag : Bool) (w : World) : Bool :=
  w.shared.running && (w.shared.attempts.record ⟨1⟩).any fun r =>
    r.authority.epoch == ⟨1⟩ && r.state == state && r.requiresRevalidation == flag &&
      (w.shared.backendPtr r.backend.id).isSome

theorem of_pacing {state : ApplicationState} {flag : Bool} {w : World}
    (h : pacing state flag w = true) :
    w.shared.running = true ∧ ∃ r b, w.shared.attempts.record ⟨1⟩ = some r ∧
      r.authority.epoch.value < 2 ∧ r.state = state ∧ r.requiresRevalidation = flag ∧
      w.shared.backendPtr r.backend.id = some b := by
  unfold pacing at h
  simp only [Bool.and_eq_true, Option.any_eq_true, beq_iff_eq] at h
  obtain ⟨hrunning, r, hr, ⟨⟨hepoch, hstate⟩, hflag⟩, hb⟩ := h
  obtain ⟨b, hb⟩ := Option.isSome_iff_exists.1 hb
  exact ⟨hrunning, r, b, hr, by rw [hepoch]; decide, hstate, hflag, hb⟩

end Scenario

/-- A fence withdraws an attempt that was applied without evidence. -/
theorem fenced_withdrawn_unverified :
    ∃ (w : World) (b : BackendPtr) (k' : Call), w.Reachable ∧
      (Call.step w.shared Scenario.answers (.locked (.fenceBelow ⟨2⟩) {})).2 = some k' ∧
      Call.Withdraws b ⟨1⟩ k' := by
  obtain ⟨n, hn⟩ := coordinator.run_exec Scenario.started Scenario.appliedSilently
  have hreachable : World.Reachable (coordinator.exec Scenario.started Scenario.appliedSilently) :=
    @Scenario.run_started anyStep trivial _ _ (hn.mono fun _ _ _ => trivial)
  obtain ⟨hrunning, r, b, hr, hbelow, hstate, -, hb⟩ :=
    @Scenario.of_pacing .appliedUnverified false (coordinator.exec Scenario.started
      Scenario.appliedSilently) (by decide +kernel)
  have hunflagged : ((coordinator.exec Scenario.started
      Scenario.appliedSilently).shared.attempts.entries.all
        fun e => !e.record.requiresRevalidation) = true := by decide +kernel
  have hfenced := fenced_withdrawn_iff hreachable hrunning Scenario.answers ⟨2⟩ {}
  obtain ⟨k', hk', hwithdraws⟩ := hfenced.2.2 (fun ⟨id, r', hr', _, _, hflag, _⟩ => by
      obtain ⟨⟨j, e⟩, hfind, rfl⟩ := Option.map_eq_some_iff.1 hr'
      have hmem := List.mem_of_getElem?
        (hreachable.counted.wellFormed.find_eq_some_iff.1 hfind).1
      have hclear := List.all_eq_true.1 hunflagged e hmem
      rw [hflag] at hclear
      cases hclear) ⟨1⟩ r b hr hbelow (by rw [hstate]; rfl) hb
  exact ⟨_, b, k', hreachable, hk', hwithdraws⟩

/-- A fence closes a flagged applied attempt and leaves its pacing with the backend. -/
theorem fence_leaves_flagged :
    ∃ (w : World) (r : ApplicationRecord) (b : BackendPtr), w.Reachable ∧
      w.shared.running = true ∧ w.shared.attempts.record ⟨1⟩ = some r ∧
      r.authority.epoch.value < 2 ∧ r.state = .applied ∧
      w.shared.backendPtr r.backend.id = some b ∧
      ¬ ∃ k', (Call.step w.shared Scenario.answers (.locked (.fenceBelow ⟨2⟩) {})).2 = some k' ∧
        Call.Withdraws b ⟨1⟩ k' := by
  obtain ⟨n, hn⟩ := coordinator.run_exec Scenario.started Scenario.appliedFlagged
  have hreachable : World.Reachable (coordinator.exec Scenario.started Scenario.appliedFlagged) :=
    @Scenario.run_started anyStep trivial _ _ (hn.mono fun _ _ _ => trivial)
  obtain ⟨hrunning, r, b, hr, hbelow, hstate, hflag, hb⟩ :=
    @Scenario.of_pacing .applied true (coordinator.exec Scenario.started
      Scenario.appliedFlagged) (by decide +kernel)
  refine ⟨_, r, b, hreachable, hrunning, hr, hbelow, hstate, hb, fun hwithdrawn => ?_⟩
  exact (fence_withdraws_iff hreachable.counted.wellFormed hrunning hr hbelow hb
    (by rw [hstate]; rfl)).1 hwithdrawn ⟨hstate, hflag⟩

end Pacing
