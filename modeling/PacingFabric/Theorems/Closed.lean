import PacingFabric.Theorems.Starts

/-!
# Closed attempts

An operator or an epoch closes an attempt: it is cancelled, revoked or fenced. `apply`
re-checks the state before each of its commits, so a late completion never reopens a closed
attempt. `verify_attempt` and `revalidate` look the state up once, before they leave the
lock, and commit their finding to whatever the record has become.

## Main results

* `closed_stays_closed`: in a run where neither of the two commits to a closed record, a
  closed record keeps its state and has no effect.
* `verify_reopens_cancelled`: without that condition a cancelled attempt becomes applied.
-/

namespace Pacing

open Interleaving

/-! ### A concrete coordinator -/

namespace Scenario

/-- A coordinator that journals nothing. -/
def config : FabricConfig := { enableDurability := false }

def binding : FlowBinding where
  flow := ⟨1⟩
  generation := ⟨1⟩
  resource := ⟨⟨1⟩, ⟨1⟩⟩
  path := ⟨⟨1⟩, ⟨1⟩⟩

def policy : PacingPolicy where
  ref := ⟨⟨1⟩, ⟨1⟩⟩
  resource := ⟨1⟩
  rateBps := 8000000
  quantumBytes := 1000
  windowNs := 10000000
  path := ⟨⟨1⟩, ⟨1⟩⟩

def grant : RateGrant where
  ref := ⟨⟨1⟩, ⟨1⟩⟩
  resource := ⟨1⟩
  ceilingBps := 16000000
  authoritative := true

def descriptor : BackendDescriptor where
  ref := ⟨⟨1⟩, ⟨1⟩⟩
  name := [115]
  supportsReadback := true

/-- Evidence that reproduces the cadence derived from `policy` for the first attempt. -/
def evidence : ReadbackEvidence where
  present := true
  kind := .syntheticReadback
  backend := ⟨⟨1⟩, ⟨1⟩⟩
  attempt := ⟨1⟩
  observedRateBps := 8000000
  observedQuantumBytes := 1000
  observedBurstBytes := 1000
  observedIntervalNs := 1000000
  integrityOk := true

/-- The same answers at every step. -/
def answers : Answers where
  now := ⟨1000⟩
  grant := .ok grant
  describe := fun _ => descriptor
  ack := { attempt := ⟨1⟩, accepted := true }
  evidence := evidence

/-- A request of a thread and `n` steps of it. -/
def calls (thread : ℕ) (request : Request) (n : ℕ) : List (Action Request Answers) :=
  .start thread request :: List.replicate n (.move thread answers)

def started : World := .idle ((Fabric.construct config {}).initializeFabric answers).2

/-- A coordinator that journals. -/
def journaling : FabricConfig := { durableDirectory := [100] }

def journalingStarted : World :=
  .idle ((Fabric.construct journaling {}).initializeFabric
    { answers with recoverNow := answers.now }).2

/-- The next incarnation that journals, over the files of `f`. -/
def journalingAgain (f : Fabric) : Fabric :=
  ((Fabric.construct journaling f.storage.disk).initializeFabric
    { answers with recoverNow := answers.now }).2

/-- A policy, a binding, a backend and an envelope derived from them. -/
def setup : List (Action Request Answers) :=
  calls 0 (.publishPolicy policy) 4 ++ calls 0 (.bindFlow binding) 4 ++
    calls 0 (.registerBackend (some {})) 6 ++ calls 0 (.deriveEnvelope ⟨1⟩) 11

/-- The envelope is applied as far as the acknowledgement. -/
def acknowledged : List (Action Request Answers) :=
  setup ++ calls 1 (.applyEnvelope ⟨⟨1⟩, ⟨1⟩⟩ ⟨1⟩ {}) 12

/-- A cancellation runs to its end before the completion is committed. -/
def cancelWhileApplying : List (Action Request Answers) :=
  acknowledged ++ calls 3 (.cancelAttempt ⟨1⟩ []) 5

/-- A verification reads the backend back before such a cancellation. -/
def cancelWhileVerifying : List (Action Request Answers) :=
  acknowledged ++ calls 2 (.verifyAttempt ⟨1⟩) 10 ++ calls 3 (.cancelAttempt ⟨1⟩ []) 5

end Scenario

/-! ### Closed records -/

/-- The step commits a finding to a record that is closed by now. -/
def Call.reopens (f : Fabric) : Call → Prop
  | .staleCheck c _ | .finalizeCheck c _ _ _ =>
    ∃ r, f.attempts.record c.id = some r ∧ r.state.isClosed = true
  | _ => False

/-- Within one incarnation, and no check commits to a closed record. -/
def sparesClosed (w : World) : Event Call Request Answers → Prop
  | .start _ _ => True
  | .move _ k _ => ¬ k.reopens w.shared
  | .restart => False

/-- The ledger is well formed and every record carries the label of its state. -/
structure Fabric.Sound (f : Fabric) : Prop where
  wellFormed : f.attempts.WellFormed
  labelled : ∀ id r, f.attempts.record id = some r → r.Labelled

theorem Fabric.Started.sound {f : Fabric} (h : f.Started) : f.Sound where
  wellFormed := h.wellFormed
  labelled id r hr := by
    obtain ⟨r₀, rfl⟩ := h.recovered id r hr
    rw [ApplicationRecord.Labelled, ApplicationRecord.recovered_effect,
      ApplicationRecord.recovered_labelFor]

theorem Fabric.Sound.step {f : Fabric} (h : f.Sound) (a : Answers) (k : Call) :
    (Call.step f a k).1.Sound := by
  obtain ⟨hwf, hmoves⟩ := Call.step_moves h.wellFormed a k
  refine ⟨hwf, fun id r' hr' => ?_⟩
  have hmove := hmoves id
  rw [hr'] at hmove
  cases hr : f.attempts.record id with
  | none =>
    rw [hr] at hmove
    exact hmove.labelled_of_none
  | some r =>
    rw [hr] at hmove
    exact hmove.labelled (h.labelled id r hr)

/-- A closed record is left alone by every step that does not commit a check to it. -/
theorem RecordStep.closed {f : Fabric} {a : Answers} {k : Call} {k' : Option Call}
    {r r' : ApplicationRecord} (h : RecordStep f a k k' (some r) (some r'))
    (hheld : f.attempts.record r.attempt = some r) (hclosed : r.state.isClosed = true)
    (hspares : ¬ k.reopens f) : r'.state = r.state := by
  have hterm : r.state.isTerminal = true := by
    cases hs : r.state <;> simp_all [ApplicationState.isClosed, ApplicationState.isTerminal]
  have hsettled : r.state.isSettled = true := by
    cases hs : r.state <;> simp_all [ApplicationState.isClosed, ApplicationState.isSettled]
  cases h with
  | keep | flagged => rfl
  | stale named => exact absurd ⟨r, named ▸ hheld, hclosed⟩ hspares
  | finalizedVerify named => exact absurd ⟨r, named ▸ hheld, hclosed⟩ hspares
  | finalizedRevalidate named => exact absurd ⟨r, named ▸ hheld, hclosed⟩ hspares
  | unconfirmed _ inFlight => simp [hterm] at inFlight
  | refused _ hs => simp [hs, ApplicationState.isClosed] at hclosed
  | acknowledged _ hs => simp [hs, ApplicationState.isClosed] at hclosed
  | driftedUnverified _ hs => simp [hs, ApplicationState.isClosed] at hclosed
  | unverified _ hs => simp [hs, ApplicationState.isClosed] at hclosed
  | driftedVerified _ hs => simp [hs, ApplicationState.isClosed] at hclosed
  | verified _ hs => simp [hs, ApplicationState.isClosed] at hclosed
  | cancelled _ unsettled => simp [hsettled] at unsettled
  | revoked unsettled => simp [hsettled] at unsettled
  | fenced _ unsettled => simp [hsettled] at unsettled
  | epochFenced _ _ unsettled => simp [hsettled] at unsettled

theorem sound_of_run {ok : World → Event Call Request Answers → Prop} {w₀ w : World} {n : ℕ}
    (hok : ∀ w e, ok w e → withinIncarnation w e) (h₀ : w₀.shared.Sound)
    (h : Run coordinator ok w₀ n w) : w.shared.Sound := by
  refine h.invariant (I := fun w => w.shared.Sound) h₀ ?_
  intro w e w' hw hstep hs
  cases hs with
  | start _ => exact hw
  | move _ => exact hw.step _ _
  | restart _ => exact absurd (hok _ _ hstep) (by simp [withinIncarnation])

theorem sparesClosed_withinIncarnation (w : World) (e : Event Call Request Answers)
    (h : sparesClosed w e) : withinIncarnation w e := by
  cases e with
  | restart => exact h
  | _ => trivial

/-- Once an attempt is cancelled, revoked or fenced it stays so, without an effect, through
any interleaving in which no check commits to a closed record. -/
theorem closed_stays_closed {config : FabricConfig} {disk : Disk} {a : Answers}
    (hstart : ((Fabric.construct config disk).initializeFabric a).1.isOk = true)
    {w w' : World} {n m : ℕ}
    (hrun : Run coordinator sparesClosed
      (.idle ((Fabric.construct config disk).initializeFabric a).2) n w)
    (hrun' : Run coordinator sparesClosed w m w') {id : AttemptId} {r : ApplicationRecord}
    (hr : w.shared.attempts.record id = some r) (hclosed : r.state.isClosed = true) :
    ∃ r', w'.shared.attempts.record id = some r' ∧ r'.state = r.state ∧ r'.effect = .none := by
  have hsound : w.shared.Sound :=
    sound_of_run sparesClosed_withinIncarnation (Fabric.initializeFabric_started a config disk
      hstart).sound hrun
  have hkept : w'.shared.Sound ∧
      ∃ r', w'.shared.attempts.record id = some r' ∧ r'.state = r.state := by
    refine hrun'.invariant (I := fun w' => w'.shared.Sound ∧
      ∃ r', w'.shared.attempts.record id = some r' ∧ r'.state = r.state) ⟨hsound, r, hr, rfl⟩ ?_
    rintro v e v' ⟨hv, x, hx, hxs⟩ hok hs
    cases hs with
    | start _ => exact ⟨hv, x, hx, hxs⟩
    | restart _ => exact hok.elim
    | @move i k b _ =>
      refine ⟨hv.step _ _, ?_⟩
      have hmove := (Call.step_moves hv.wellFormed b k).record id
      rw [hx] at hmove
      obtain ⟨x', hx'⟩ := hmove.isSome
      rw [hx'] at hmove
      have hid := hv.wellFormed.record_attempt hx
      exact ⟨x', hx', (hmove.closed (hid ▸ hx) (hxs ▸ hclosed) hok).trans hxs⟩
  obtain ⟨hsound', r', hr', hs⟩ := hkept
  refine ⟨r', hr', hs, ?_⟩
  have hlabel := hsound'.labelled id r' hr'
  rw [ApplicationRecord.Labelled, hs] at hlabel
  rw [hlabel]
  cases hstate : r.state <;> simp_all [ApplicationState.isClosed, ApplicationRecord.labelFor]

/-- No check commits at all. -/
def Scenario.noCheckCommits (_ : World) : Event Call Request Answers → Bool
  | .move _ (.staleCheck _ _) _ | .move _ (.finalizeCheck _ _ _ _) _ | .restart => false
  | _ => true

theorem Scenario.sparesClosed_of_noCheckCommits (w : World) (e : Event Call Request Answers)
    (h : noCheckCommits w e = true) : sparesClosed w e := by
  cases e with
  | start _ _ => trivial
  | move _ k _ => cases k <;> first | exact id | simp [noCheckCommits] at h
  | restart => simp [noCheckCommits] at h

/-- An attempt cancelled before its backend completion is committed stays cancelled. -/
theorem closed_stays_closed_late_completion :
    ∃ r', (coordinator.exec (coordinator.exec Scenario.started Scenario.cancelWhileApplying)
        (List.replicate 12 (.move 1 Scenario.answers))).shared.attempts.record ⟨1⟩ = some r' ∧
      r'.state = .cancelled ∧ r'.effect = .none := by
  obtain ⟨n, hn⟩ := Program.run_of_allows (P := coordinator)
    Scenario.sparesClosed_of_noCheckCommits Scenario.cancelWhileApplying
    (c := Scenario.started) (by decide +kernel)
  obtain ⟨m, hm⟩ := Program.run_of_allows (P := coordinator)
    Scenario.sparesClosed_of_noCheckCommits (List.replicate 12 (.move 1 Scenario.answers))
    (c := coordinator.exec Scenario.started Scenario.cancelWhileApplying) (by decide +kernel)
  have hcancelled : ((coordinator.exec Scenario.started
      Scenario.cancelWhileApplying).shared.attempts.record ⟨1⟩).map (·.state) =
        some .cancelled := by decide +kernel
  obtain ⟨r, hr, hs⟩ := Option.map_eq_some_iff.1 hcancelled
  obtain ⟨r', hr', hs', he⟩ := @closed_stays_closed Scenario.config {} Scenario.answers
    (by decide +kernel) _ _ _ _ hn hm _ _ hr (by rw [hs]; rfl)
  exact ⟨r', hr', hs'.trans hs, he⟩

/-- A verification that read the backend before a cancellation commits after it: the
cancelled attempt is applied, with an effect. -/
theorem verify_reopens_cancelled :
    ∃ (config : FabricConfig) (disk : Disk) (a : Answers) (w w' : World) (n m : ℕ),
      ((Fabric.construct config disk).initializeFabric a).1.isOk = true ∧
      Run coordinator withinIncarnation
        (.idle ((Fabric.construct config disk).initializeFabric a).2) n w ∧
      Run coordinator withinIncarnation w m w' ∧
      ∃ r r', w.shared.attempts.record ⟨1⟩ = some r ∧ r.state = .cancelled ∧
        w'.shared.attempts.record ⟨1⟩ = some r' ∧ r'.state = .applied ∧
        r'.effect = .syntheticVerified := by
  obtain ⟨n, hn⟩ :=
    Program.run_exec (P := coordinator) Scenario.started Scenario.cancelWhileVerifying
  obtain ⟨m, hm⟩ := Program.run_exec (P := coordinator)
    (coordinator.exec Scenario.started Scenario.cancelWhileVerifying)
    [.move 2 Scenario.answers]
  obtain ⟨hcancelled, happlied⟩ : ((coordinator.exec Scenario.started
      Scenario.cancelWhileVerifying).shared.attempts.record ⟨1⟩).map (·.state) =
        some .cancelled ∧ ((coordinator.exec (coordinator.exec Scenario.started
      Scenario.cancelWhileVerifying) [.move 2 Scenario.answers]).shared.attempts.record
        ⟨1⟩).map (fun r => (r.state, r.effect)) = some (.applied, .syntheticVerified) := by
    decide +kernel
  obtain ⟨r, hr, hs⟩ := Option.map_eq_some_iff.1 hcancelled
  obtain ⟨r', hr', hs'⟩ := Option.map_eq_some_iff.1 happlied
  exact ⟨Scenario.config, {}, Scenario.answers, _, _, n, m, by decide +kernel, hn, hm, r, r',
    hr, hs, hr', congrArg Prod.fst hs', congrArg Prod.snd hs'⟩

end Pacing
