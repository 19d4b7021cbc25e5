import PacingFabric.Model.Explain
import PacingFabric.Theorems.Identities

/-!
# Which effect an explanation asserts

`explain` compares the current authority with the latest envelope and withholds the effect
when they differ. When the current authority could not be fetched, there is nothing to
compare: no drift is found, and the effect of the newest attempt is asserted all the same.

## Main definitions

* `Explanation.Justified`: an asserted effect is the label of the reported attempt, under an
  authority that was fetched and is the attempt's own.
* `Fabric.Explainable`: the condition on the coordinator, the flow and the fetched authority.

## Main results

* `explain_effect`: the asserted effect, as a function of what was read and fetched.
* `explain_justified_iff`: an explanation is justified exactly under the condition.
* `explain_unfetched`: an effect asserted while the rate authority is unreachable.
-/

namespace Pacing

open Interleaving

/-- An effect is asserted only under the authority of the reported attempt, fetched just now,
as the attempt's own label, and with no revalidation pending. -/
def Explanation.Justified (out : Explanation) (current : StatusOr AuthorityInputs) : Prop :=
  out.effect ≠ .none → ∃ inputs attempt, current = .ok inputs ∧ out.attempt = some attempt ∧
    inputs.vector = attempt.authority ∧ attempt.effect = out.effect ∧
    attempt.requiresRevalidation = false

/-- The drift an explanation finds. -/
def Explanation.foundDrift (read : Explanation) (current : StatusOr AuthorityInputs) :
    AuthorityDrift :=
  match current, read.envelope with
  | .ok inputs, some envelope => compareAuthority envelope.authority inputs.vector
  | _, _ => .none

namespace Fabric

variable {f : Fabric} {flow : FlowId}

theorem explainBinding_plain : (f.explainBinding flow).attempt = none ∧
    (f.explainBinding flow).envelope = none ∧ (f.explainBinding flow).effect = .none ∧
    (f.explainBinding flow).drift = .none := by
  unfold explainBinding
  split <;> exact ⟨rfl, rfl, rfl, rfl⟩

/-- An attempt is read with its envelope, and nothing is asserted yet. -/
theorem explainState_plain : (f.explainState flow).effect = .none ∧
    (f.explainState flow).drift = .none ∧
    ((f.explainState flow).envelope = none → (f.explainState flow).attempt = none) := by
  obtain ⟨hattempt, henvelope, heffect, hdrift⟩ := @explainBinding_plain f flow
  unfold explainState
  dsimp only
  split
  · exact ⟨heffect, hdrift, fun _ => hattempt⟩
  · split
    · exact ⟨heffect, hdrift, fun _ => hattempt⟩
    · exact ⟨heffect, hdrift, fun h => by cases h⟩

end Fabric

namespace Explanation

variable {read : Explanation} {grant : StatusOr RateGrant} {current : StatusOr AuthorityInputs}

theorem withGrant_keeps : (read.withGrant grant).envelope = read.envelope ∧
    (read.withGrant grant).attempt = read.attempt ∧
    (read.withGrant grant).effect = read.effect ∧
    (read.withGrant grant).drift = read.drift := by
  unfold withGrant
  repeat' split
  all_goals exact ⟨rfl, rfl, rfl, rfl⟩

theorem withAuthority_keeps : (read.withAuthority current).attempt = read.attempt ∧
    (read.withAuthority current).effect = read.effect := by
  unfold withAuthority
  split <;> exact ⟨rfl, rfl⟩

theorem withAuthority_drift (hdrift : read.drift = .none)
    (hpaired : read.envelope = none → read.attempt = none) :
    (read.withAuthority current).drift = read.foundDrift current := by
  unfold withAuthority foundDrift
  cases current with
  | error status => exact hdrift
  | ok inputs =>
    cases henvelope : read.envelope with
    | some envelope => rfl
    | none =>
      dsimp only
      rw [hpaired henvelope]
      exact hdrift

theorem withAttempt_keeps (attempt : ApplicationRecord) :
    (read.withAttempt attempt).attempt = read.attempt ∧
      (read.withAttempt attempt).effect =
        if attempt.requiresRevalidation then .none else attempt.effect := by
  unfold withAttempt
  dsimp only
  cases attempt.requiresRevalidation with
  | true =>
    simp only [if_true]
    repeat' split
    all_goals exact ⟨rfl, rfl⟩
  | false =>
    simp only [Bool.false_eq_true, if_false]
    split <;> exact ⟨rfl, rfl⟩

theorem conclude_attempt : read.conclude.attempt = read.attempt := by
  unfold conclude
  dsimp only
  split
  · rfl
  · cases hattempt : read.attempt with
    | none =>
      dsimp only
      split <;> exact hattempt
    | some attempt =>
      have hkeep := (@withAttempt_keeps read attempt).1.trans hattempt
      dsimp only
      split <;> exact hkeep

theorem conclude_effect (heffect : read.effect = .none) : read.conclude.effect =
    if read.drift ≠ .none then .none
    else
      match read.attempt with
      | some attempt => if attempt.requiresRevalidation then .none else attempt.effect
      | none => .none := by
  unfold conclude
  dsimp only
  split
  · rfl
  · cases hattempt : read.attempt with
    | none =>
      dsimp only
      split <;> exact heffect
    | some attempt =>
      have hkeep := (@withAttempt_keeps read attempt).2
      dsimp only
      split <;> exact hkeep

end Explanation

section
variable {f : Fabric} {flow : FlowId} {grant : StatusOr RateGrant}
  {current : StatusOr AuthorityInputs} {out : Explanation}

/-- The asserted effect: none under drift or a pending revalidation, else the label of the
newest attempt, also when no authority was fetched. -/
theorem explain_effect (h : f.explain flow grant current = .ok out) :
    out.attempt = (f.explainState flow).attempt ∧
      out.effect =
        if (f.explainState flow).foundDrift current ≠ .none then .none
        else
          match (f.explainState flow).attempt with
          | some attempt => if attempt.requiresRevalidation then .none else attempt.effect
          | none => .none := by
  unfold Fabric.explain at h
  split at h
  · cases h
  obtain rfl := Except.ok.inj h
  obtain ⟨heffect, hdrift, hpaired⟩ := @Fabric.explainState_plain f flow
  -- the grant and the current authority are reported beside what was read
  generalize f.explainState flow = read at heffect hdrift hpaired ⊢
  obtain ⟨hgenvelope, hgattempt, hgeffect, hgdrift⟩ :=
    @Explanation.withGrant_keeps read grant
  have hfound : (read.withGrant grant).foundDrift current = read.foundDrift current := by
    unfold Explanation.foundDrift
    rw [hgenvelope]
  have hpaired' : (read.withGrant grant).envelope = none →
      (read.withGrant grant).attempt = none := by
    rw [hgenvelope, hgattempt]
    exact hpaired
  obtain ⟨hattempt, heffect'⟩ :=
    @Explanation.withAuthority_keeps (read.withGrant grant) current
  refine ⟨?_, ?_⟩
  · rw [Explanation.conclude_attempt, hattempt, hgattempt]
  · rw [Explanation.conclude_effect (heffect'.trans (hgeffect.trans heffect)), hattempt,
      hgattempt, Explanation.withAuthority_drift (hgdrift.trans hdrift) hpaired', hfound]

/-- Where the newest attempt has an effect to assert, the authority was fetched, and it is
the attempt's unless it drifted from the envelope. -/
def Fabric.Explainable (f : Fabric) (flow : FlowId) (current : StatusOr AuthorityInputs) :
    Prop :=
  ∀ attempt, (f.explainState flow).attempt = some attempt →
    attempt.requiresRevalidation = false → attempt.effect ≠ .none →
    ∃ inputs, current = .ok inputs ∧
      ∀ envelope, (f.explainState flow).envelope = some envelope →
        envelope.authority.complete = true → envelope.authority = inputs.vector →
        attempt.authority = envelope.authority

/-- In every state, for every flow, every grant and every outcome of `fetch_authority`: an
explanation is justified exactly under the condition. -/
theorem explain_justified_iff (h : f.explain flow grant current = .ok out) :
    out.Justified current ↔ f.Explainable flow current := by
  obtain ⟨hattempt, heffect⟩ := explain_effect h
  have hpaired := (@Fabric.explainState_plain f flow).2.2
  unfold Fabric.Explainable
  generalize f.explainState flow = read at hattempt heffect hpaired ⊢
  constructor
  · intro hjust attempt hread hflag hlabel
    by_cases hdrift : read.foundDrift current = .none
    · -- the effect is asserted, so the law speaks about this attempt
      have hasserted : out.effect = attempt.effect := by
        simp [heffect, hdrift, hread, hflag]
      obtain ⟨inputs, attempt', hfetched, hread', hvector, -⟩ := hjust (by rwa [hasserted])
      obtain rfl : attempt = attempt' :=
        Option.some.inj (hread.symm.trans (hattempt.symm.trans hread'))
      exact ⟨inputs, hfetched, fun envelope _ _ heq => hvector.symm.trans heq.symm⟩
    · -- a drift is found only in an authority that was fetched
      unfold Explanation.foundDrift at hdrift
      split at hdrift
      · rename_i inputs envelope henvelope
        refine ⟨inputs, rfl, fun envelope' henvelope' hcomplete heq => ?_⟩
        obtain rfl : envelope = envelope' := Option.some.inj (henvelope.symm.trans henvelope')
        exact absurd (compareAuthority_eq_none_iff.2 ⟨hcomplete, heq⟩) hdrift
      · exact absurd rfl hdrift
  -- an effect is asserted only without drift, for an attempt that has one
  · intro hcond hasserted
    by_cases hdrift : read.foundDrift current = .none
    · rw [heffect, if_neg (by simpa using hdrift)] at hasserted
      cases hread : read.attempt with
      | none =>
        rw [hread] at hasserted
        exact absurd rfl hasserted
      | some attempt =>
        rw [hread] at hasserted
        dsimp only at hasserted
        split at hasserted
        · exact absurd rfl hasserted
        · rename_i hflag
          have hflag : attempt.requiresRevalidation = false := by simpa using hflag
          obtain ⟨inputs, hfetched, hsame⟩ := hcond attempt hread hflag hasserted
          obtain ⟨envelope, henvelope⟩ : ∃ envelope, read.envelope = some envelope := by
            cases henvelope : read.envelope with
            | some envelope => exact ⟨envelope, rfl⟩
            | none =>
              rw [hpaired henvelope] at hread
              cases hread
          have heffect' : out.effect = attempt.effect := by
            simp [heffect, hdrift, hread, hflag]
          have hcompare : compareAuthority envelope.authority inputs.vector = .none := by
            unfold Explanation.foundDrift at hdrift
            simpa only [hfetched, henvelope] using hdrift
          obtain ⟨hcomplete, heq⟩ := compareAuthority_eq_none_iff.1 hcompare
          refine ⟨inputs, attempt, hfetched, hattempt.trans hread, ?_, heffect'.symm, hflag⟩
          exact heq.symm.trans (hsame envelope henvelope hcomplete heq).symm
    · rw [heffect, if_pos hdrift] at hasserted
      exact absurd rfl hasserted

end

namespace Scenario

/-- The envelope is applied and its effect verified. -/
def applied : World :=
  coordinator.exec started (setup ++ calls 1 (.applyEnvelope ⟨⟨1⟩, ⟨1⟩⟩ ⟨1⟩ {}) 25)

/-- The rate authority does not answer. -/
def unreachable : Answers := { answers with grant := .error (.of .unknownAuthority []) }

/-- What `explain` reports of the first flow under the answers of the rate authority. -/
def explained (a : Answers) : StatusOr Explanation :=
  applied.shared.explain ⟨1⟩ a.grant (applied.shared.fetchAuthority a ⟨1⟩).1

/-- The effect that is asserted, and whether the current authority was fetched. -/
def asserted (a : Answers) : Option (EffectLabel × Bool) :=
  match explained a with
  | .ok out => some (out.effect, (applied.shared.fetchAuthority a ⟨1⟩).1.isOk)
  | .error _ => none

theorem of_asserted {a : Answers} {effect : EffectLabel} {fetched : Bool}
    (h : asserted a = some (effect, fetched)) : ∃ out, explained a = .ok out ∧
      out.effect = effect ∧ (applied.shared.fetchAuthority a ⟨1⟩).1.isOk = fetched := by
  unfold asserted at h
  split at h
  · rename_i out hout
    obtain ⟨heffect, hfetched⟩ := Prod.mk.inj (Option.some.inj h)
    exact ⟨out, hout, heffect, hfetched⟩
  · cases h

end Scenario

/-- The verified effect of an applied envelope is asserted, and justified. -/
theorem explain_justified_applied :
    ∃ out, Scenario.explained Scenario.answers = .ok out ∧
      out.effect = .syntheticVerified ∧
      (out.Justified (Scenario.applied.shared.fetchAuthority Scenario.answers ⟨1⟩).1 ↔
        Scenario.applied.shared.Explainable ⟨1⟩
          (Scenario.applied.shared.fetchAuthority Scenario.answers ⟨1⟩).1) := by
  obtain ⟨out, hout, heffect, -⟩ := @Scenario.of_asserted Scenario.answers
    .syntheticVerified true (by decide +kernel)
  exact ⟨out, hout, heffect, explain_justified_iff hout⟩

/-- The same effect is asserted while the rate authority does not answer. -/
theorem explain_unfetched :
    ∃ n w, Run coordinator anyStep World.initial n w ∧
      ∃ flow a out, w.shared.explain flow a.grant (w.shared.fetchAuthority a flow).1 = .ok out ∧
        ¬ out.Justified (w.shared.fetchAuthority a flow).1 := by
  obtain ⟨n, hn⟩ := coordinator.run_exec Scenario.started
    (Scenario.setup ++ Scenario.calls 1 (.applyEnvelope ⟨⟨1⟩, ⟨1⟩⟩ ⟨1⟩ {}) 25)
  obtain ⟨m, hm⟩ := @Scenario.run_started anyStep trivial _ _
    (hn.mono fun _ _ _ => trivial)
  obtain ⟨out, hout, heffect, hfetched⟩ := @Scenario.of_asserted Scenario.unreachable
    .syntheticVerified false (by decide +kernel)
  refine ⟨m, _, hm, ⟨1⟩, Scenario.unreachable, out, hout, fun hjust => ?_⟩
  obtain ⟨inputs, _, hcurrent, -⟩ := hjust (by simp [heffect])
  change (Scenario.applied.shared.fetchAuthority Scenario.unreachable ⟨1⟩).1 = _ at hcurrent
  rw [hcurrent] at hfetched
  cases hfetched

end Pacing
