import PacingFabric.Theorems.InFlight
import PacingFabric.Theorems.Locals
import PacingFabric.Theorems.Regression

/-!
# The lifetime of an envelope

Phase A of `apply_envelope` compares the instant the call sampled when it began with the
lifetime of the envelope. No other section compares the two: neither the later samples of the
same apply nor those of `verify_attempt` and `revalidate` decide anything about expiry.

## Main results

* `apply_commits_unexpired`: an apply moves its attempt to `Applied` only if the envelope of
  the attempt had not expired at the instant the apply began with.
* `expired_applied`: a verification that begins after the lifetime has ended, and an apply
  that samples such an instant later on, move an attempt to `Applied`.
-/

namespace Pacing

open Interleaving

section
variable {f : Fabric} {a : Answers}

/-! ### What a call holds of its envelope -/

/-- Phase A answers with the envelope of the reference, within its lifetime. -/
theorem Fabric.resolveApply_ok (hs : f.envelopes.Sound) {now : Instant} {ref : EnvelopeRef}
    {backendId : BackendId} {envelope : PacingEnvelope} {backend : BackendPtr}
    (h : f.resolveApply now ref backendId = .ok (envelope, backend)) :
    envelope.ref = ref ∧ envelope.expiredAt now = false := by
  unfold resolveApply at h
  split at h
  · cases h
  cases hfind : f.envelopes.find ref.id with
  | none =>
    rw [hfind] at h
    cases h
  | some slot =>
    obtain ⟨i, entry⟩ := slot
    obtain ⟨-, -, hid⟩ := hs.of_find hfind
    rw [hfind] at h
    dsimp only at h
    split_ifs at h with hgeneration hrevoked hexpired
    cases hb : f.backendPtr backendId with
    | none =>
      rw [hb] at h
      cases h
    | some b =>
      rw [hb] at h
      obtain ⟨rfl, rfl⟩ := Prod.mk.inj (Except.ok.inj h)
      refine ⟨?_, by simpa using hexpired⟩
      calc entry.envelope.ref = ⟨entry.envelope.ref.id, entry.envelope.ref.generation⟩ := rfl
        _ = ref := by rw [hid, not_not.1 hgeneration]

/-- An apply in flight asserts that its envelope is the one its attempt is bound to, and had
not expired at the instant the apply began with. -/
structure Call.Timely (f : Fabric) (k : Call) : Prop where
  applying : ∀ p, k.applying = some p →
    p.envelope.ref = p.ref ∧ p.envelope.expiredAt p.now = false
  installing : ∀ i, k.installing = some i → i.envelope.expiredAt i.now = false ∧
    ∃ r, f.attempts.record i.request.attempt = some r ∧ r.envelope = i.envelope.ref

theorem Call.Timely.of_idle {k : Call} (h : k.idle) : k.Timely f := by
  refine ⟨fun p hp => ?_, fun i hi => ?_⟩
  · rw [h.1] at hp
    cases hp
  · rw [h.2.1] at hi
    cases hi

/-- The records an assertion speaks of stay bound to their envelopes. -/
theorem Call.Timely.kept {l : Call} (h : l.Timely f) (hwf : f.attempts.WellFormed) (k : Call) :
    l.Timely (Call.step f a k).1 := by
  refine ⟨h.applying, fun i hi => ?_⟩
  obtain ⟨hlive, r, hr, henvelope⟩ := h.installing i hi
  obtain ⟨r', hr', hsame⟩ := Call.record_kept hwf a k hr
  exact ⟨hlive, r', hr', hsame.envelope.trans henvelope⟩

theorem Call.Timely.step {k k' : Call} (h : k.Timely f) (hwf : f.attempts.WellFormed)
    (hs : f.envelopes.Sound) (hk' : (Call.step f a k).2 = some k') :
    k'.Timely (Call.step f a k).1 := by
  have hcarries := Call.step_carries k hk'
  refine ⟨fun p hp => ?_, fun i hi => ?_⟩
  · rcases hcarries.applying p hp with hp | ⟨-, hresolve⟩
    · exact h.applying p hp
    · exact Fabric.resolveApply_ok hs hresolve
  · rcases hcarries.installing i hi with hi | ⟨p, rfl, rfl, hnow, henvelope, -⟩
    · exact (h.kept hwf k).installing i hi
    -- the reservation has just made the record the assertion speaks of
    · obtain ⟨href, hlive⟩ := h.applying p rfl
      obtain ⟨hfresh, hatt, -⟩ := reserve_installs hwf hk'
      rw [hnow, henvelope, hatt, reservedLedger_record hwf hfresh]
      exact ⟨hlive, _, Function.update_self .., href.symm⟩

/-- Sound tables, and the assertion of every apply in flight. -/
def timely : Outline Fabric Call where
  shared f := f.attempts.WellFormed ∧ f.envelopes.Sound
  assertion f k := k.Timely f
  apart _ _ := True

theorem timely_stable : timely.Stable coordinator anyStep where
  begins c i r _ _ _ := ⟨.of_idle (Call.idle_begin r), fun _ _ _ => ⟨trivial, trivial⟩⟩
  locally c i k a hc _ hk := by
    obtain ⟨hwf, hs⟩ := hc.shared
    exact ⟨⟨(Call.step_moves hwf a k).wellFormed, (Call.step_table k).sound hs⟩,
      fun k' hk' => (hc.assertion i k hk).step hwf hs hk'⟩
  interference c i k a j l hc _ _ _ hl :=
    ⟨(hc.assertion j l hl).kept hc.shared.1 k, fun _ _ => ⟨trivial, trivial⟩⟩
  restarts c s _ _ hr := by
    obtain ⟨config, a, rfl⟩ := hr
    exact ⟨(Fabric.initializeFabric_identified a config _).wellFormed,
      Fabric.initializeFabric_sound config _⟩

/-- Over every run and any number of restarts, whatever the readings of the clock: an apply
moves its attempt to `Applied` only if the envelope of the attempt had not expired at the
instant the apply began with. -/
theorem apply_commits_unexpired {w : World} {n : ℕ}
    (hrun : Run coordinator anyStep World.initial n w) {thread : ℕ} {i : Installing}
    {status : Status} {evidence : ReadbackEvidence} {current : StatusOr AuthorityInputs}
    (hcall : w.calls thread = some (.commitVerified i status evidence current)) {b : Answers}
    {id : AttemptId}
    (happlies : (Call.commitVerified i status evidence current).Applies w.shared b id) :
    ∃ r, w.shared.attempts.record id = some r ∧ r.envelope = i.envelope.ref ∧
      i.envelope.expiredAt i.now = false := by
  have hholds : timely.Holds w :=
    timely_stable.holds (Outline.holds_idle ⟨AttemptLedger.wellFormed_empty,
      EnvelopeTable.sound_empty⟩) hrun
  obtain ⟨x, r, hid, hfinal⟩ := happlies.finalizes hholds.shared.1
  obtain ⟨hlive, r', hr', henvelope⟩ := (hholds.assertion thread _ hcall).installing i rfl
  obtain rfl : _ = x := Option.some.inj hfinal.finalization
  exact ⟨r', hid ▸ hr', henvelope, hlive⟩

end

namespace Scenario

/-- A reading past the lifetime of the envelope, which is one second. -/
def late : Answers := { answers with now := ⟨2000000000⟩ }

/-- An attempt that is applied without evidence, and a verification that begins late, as far
as its finalization. -/
def verifyingLate : List (Action Request Answers) :=
  setup ++
    .start 0 (.applyEnvelope ⟨⟨1⟩, ⟨1⟩⟩ ⟨1⟩ {}) ::
      List.replicate 21 (.move 0 { answers with evidence := {} }) ++
    .start 0 (.verifyAttempt ⟨1⟩) :: List.replicate 10 (.move 0 late)

/-- An apply as far as the sample that follows its readback. -/
def applyingLate : List (Action Request Answers) :=
  setup ++ calls 0 (.applyEnvelope ⟨⟨1⟩, ⟨1⟩⟩ ⟨1⟩ {}) 17

/-- The call is about to finalize a check that began late, and moves its attempt. -/
def verifiesLate (f : Fabric) : Option Call → Bool
  | some (.finalizeCheck c status evidence current) =>
    c.envelope.expiredAt c.now &&
      (f.attempts.record c.id).any (fun r => r.envelope == c.envelope.ref) &&
      (Call.finalizeCheck c status evidence current).appliesTest f answers c.id
  | _ => false

/-- The call is about to take the sample that follows its readback. -/
def samplesAfter : Option Call → Option Installing
  | some (.fetch (.applyAfter i _ _) _ (.sample ..)) => some i
  | _ => none

/-- The call is about to commit the attempt `i` installs, and moves it. -/
def commitsTest (f : Fabric) (i : Installing) : Option Call → Bool
  | some (.commitVerified j status evidence current) =>
    j.request == i.request &&
      (Call.commitVerified j status evidence current).appliesTest f answers i.request.attempt
  | _ => false

theorem of_verifiesLate {f : Fabric} {k : Option Call} (h : verifiesLate f k = true) :
    ∃ c status evidence current, k = some (.finalizeCheck c status evidence current) ∧
      c.envelope.expiredAt c.now = true ∧
      (∃ r, f.attempts.record c.id = some r ∧ r.envelope = c.envelope.ref) ∧
      (Call.finalizeCheck c status evidence current).Applies f answers c.id := by
  unfold verifiesLate at h
  split at h
  · rename_i c status evidence current
    simp only [Bool.and_eq_true, Option.any_eq_true, beq_iff_eq] at h
    obtain ⟨⟨hexpired, hrecord⟩, happlies⟩ := h
    exact ⟨c, status, evidence, current, rfl, hexpired, hrecord, Call.applies_of_test happlies⟩
  · cases h

theorem of_samplesAfter {k : Option Call} {i : Installing} (h : samplesAfter k = some i) :
    ∃ status evidence flow binding policy grant,
      k = some (.fetch (.applyAfter i status evidence) flow (.sample binding policy grant)) := by
  unfold samplesAfter at h
  split at h
  · obtain rfl := Option.some.inj h
    exact ⟨_, _, _, _, _, _, rfl⟩
  · cases h

theorem of_commitsTest {f : Fabric} {i : Installing} {k : Option Call}
    (h : commitsTest f i k = true) :
    ∃ j status evidence current, k = some (.commitVerified j status evidence current) ∧
      j.request = i.request ∧
      (Call.commitVerified j status evidence current).Applies f answers i.request.attempt := by
  unfold commitsTest at h
  split at h
  · rename_i j status evidence current
    rw [Bool.and_eq_true, beq_iff_eq] at h
    exact ⟨j, status, evidence, current, rfl, h.1, Call.applies_of_test h.2⟩
  · cases h

end Scenario

/-- An apply that samples within the lifetime of its envelope commits. -/
theorem apply_commits_unexpired_inTime :
    ∃ (i : Installing) (r : ApplicationRecord),
      (coordinator.exec (coordinator.exec Scenario.started Scenario.applyingLate)
        [.move 0 Scenario.answers, .move 0 Scenario.answers]).shared.attempts.record
          i.request.attempt = some r ∧
      r.envelope = i.envelope.ref ∧ i.envelope.expiredAt i.now = false := by
  obtain ⟨n, hn⟩ := coordinator.run_exec Scenario.started Scenario.applyingLate
  obtain ⟨m, hm⟩ := coordinator.run_exec
    (coordinator.exec Scenario.started Scenario.applyingLate)
    [.move 0 Scenario.answers, .move 0 Scenario.answers]
  obtain ⟨n', hrun⟩ := @Scenario.run_started anyStep trivial _ _
    ((hn.trans hm).mono fun _ _ _ => trivial)
  have htest : (Scenario.samplesAfter ((coordinator.exec Scenario.started
      Scenario.applyingLate).calls 0)).any (fun i => Scenario.commitsTest
        (coordinator.exec (coordinator.exec Scenario.started Scenario.applyingLate)
          [.move 0 Scenario.answers, .move 0 Scenario.answers]).shared i
        ((coordinator.exec (coordinator.exec Scenario.started Scenario.applyingLate)
          [.move 0 Scenario.answers, .move 0 Scenario.answers]).calls 0)) = true := by
    decide +kernel
  rw [Option.any_eq_true] at htest
  obtain ⟨i, -, hi⟩ := htest
  obtain ⟨j, status, evidence, current, hcall, hrequest, happlies⟩ := Scenario.of_commitsTest hi
  obtain ⟨r, hr, href, hlive⟩ := apply_commits_unexpired hrun hcall happlies
  exact ⟨j, r, hrequest ▸ hr, href, hlive⟩

/-- Under a clock that never goes back: a verification that began after the lifetime of the
envelope moves its attempt to `Applied`, and so does an apply whose sample after the readback
is past that lifetime. -/
theorem expired_applied :
    ∃ (config : FabricConfig) (disk : Disk) (a : Answers),
      ((Fabric.construct config disk).initializeFabric a).1.isOk = true ∧
      (∃ (w : Config (Fabric × List Instant) Call) (n : ℕ),
        Run recorded withinIncarnation (.idle (((Fabric.construct config disk).initializeFabric
          a).2, startReadings config a)) n w ∧
        ¬ WentBack w.shared.2 ∧
        ∃ c status evidence current b,
          w.calls 0 = some (.finalizeCheck c status evidence current) ∧
          c.envelope.expiredAt c.now = true ∧
          (∃ r, w.shared.1.attempts.record c.id = some r ∧ r.envelope = c.envelope.ref) ∧
          (Call.finalizeCheck c status evidence current).Applies w.shared.1 b c.id) ∧
      ∃ (w : Config (Fabric × List Instant) Call) (n : ℕ) (late : Answers),
        Run recorded withinIncarnation (.idle (((Fabric.construct config disk).initializeFabric
          a).2, startReadings config a)) n w ∧
        ¬ WentBack (recorded.exec w [.move 0 late, .move 0 late]).shared.2 ∧
        ∃ i status evidence flow binding policy grant,
          w.calls 0 =
            some (.fetch (.applyAfter i status evidence) flow (.sample binding policy grant)) ∧
          i.envelope.expiredAt late.now = true ∧
          ∃ j status evidence current b,
            (recorded.exec w [.move 0 late, .move 0 late]).calls 0 =
              some (.commitVerified j status evidence current) ∧
            j.request = i.request ∧
            (Call.commitVerified j status evidence current).Applies
              (recorded.exec w [.move 0 late, .move 0 late]).shared.1 b i.request.attempt := by
  refine ⟨Scenario.config, {}, Scenario.answers, by decide +kernel, ?_, ?_⟩
  · obtain ⟨n, hn⟩ := recorded.run_exec Scenario.recording Scenario.verifyingLate
    have hforward : ¬ WentBack (recorded.exec Scenario.recording
        Scenario.verifyingLate).shared.2 := by
      unfold WentBack
      decide +kernel
    obtain ⟨c, status, evidence, current, hcall, hexpired, hrecord, happlies⟩ :=
      @Scenario.of_verifiesLate (recorded.exec Scenario.recording
        Scenario.verifyingLate).shared.1 ((recorded.exec Scenario.recording
        Scenario.verifyingLate).calls 0) (by decide +kernel)
    generalize recorded.exec Scenario.recording Scenario.verifyingLate = w at *
    exact ⟨w, n, hn, hforward, c, status, evidence, current, _, hcall, hexpired, hrecord,
      happlies⟩
  · obtain ⟨n, hn⟩ := recorded.run_exec Scenario.recording Scenario.applyingLate
    have hforward : ¬ WentBack (recorded.exec (recorded.exec Scenario.recording
        Scenario.applyingLate) [.move 0 Scenario.late, .move 0 Scenario.late]).shared.2 := by
      unfold WentBack
      decide +kernel
    have htest : (Scenario.samplesAfter ((recorded.exec Scenario.recording
        Scenario.applyingLate).calls 0)).any (fun i => i.envelope.expiredAt Scenario.late.now &&
          Scenario.commitsTest (recorded.exec (recorded.exec Scenario.recording
            Scenario.applyingLate) [.move 0 Scenario.late, .move 0 Scenario.late]).shared.1 i
          ((recorded.exec (recorded.exec Scenario.recording Scenario.applyingLate)
            [.move 0 Scenario.late, .move 0 Scenario.late]).calls 0)) = true := by
      decide +kernel
    generalize recorded.exec Scenario.recording Scenario.applyingLate = w at hn hforward htest
    rw [Option.any_eq_true] at htest
    obtain ⟨i, hi, htest⟩ := htest
    rw [Bool.and_eq_true] at htest
    obtain ⟨status, evidence, flow, binding, policy, grant, hcall⟩ := Scenario.of_samplesAfter hi
    obtain ⟨j, status', evidence', current, hcall', hrequest, happlies⟩ :=
      Scenario.of_commitsTest htest.2
    exact ⟨w, n, Scenario.late, hn, hforward, i, status, evidence, flow, binding, policy, grant,
      hcall, htest.1, j, status', evidence', current, _, hcall', hrequest, happlies⟩

end Pacing
