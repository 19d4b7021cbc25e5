import PacingFabric.Theorems.Identities

/-!
# Derivations under concurrent governance

A derivation looks its flow up, asks the rate authority, stamps epoch and boot, and inserts
its envelope, in four separate steps. The insertion does not look again, so its authority is
the one held at that step only as long as no other call changes what the derivation found.

## Main definitions

* `Fabric.Holds`: a vector is the authority the coordinator holds.
* `Call.Undisturbed`: what a step of another call leaves a derivation in flight with.
* `sparesDerivations`: every step leaves every derivation in flight undisturbed.

## Main results

* `derivations_current`: then every envelope is inserted under the authority held.
* `derivation_overtaken`: an envelope inserted under a binding that was replaced.
-/

namespace Pacing

open Interleaving

/-- The vector names the binding and the resolved policy of its flow, the epoch and the
boot. -/
def Fabric.Holds (f : Fabric) (v : AuthorityVector) : Prop :=
  ∃ binding policy, f.lookupAuthority v.flow.id = .ok (binding, policy) ∧
    v.flow.generation = binding.generation ∧ v.resource = binding.resource ∧
    v.path = binding.path ∧ v.policy = policy.ref ∧ v.epoch = f.epoch ∧
    v.coordinatorBoot = f.boot

section
variable {f g : Fabric} {a : Answers}

/-- What a derivation in flight relies on is the same in `g` as in `f`: what was looked up
until the insertion, and the epoch from the stamp on. -/
def Call.Undisturbed (f g : Fabric) : Call → Prop
  | .fetch (.derive _) flow (.grant ..) | .fetch (.derive _) flow (.sample ..)
  | .fetch (.derive _) flow (.stamp ..) => g.lookupAuthority flow = f.lookupAuthority flow
  | .derive inputs _ =>
    g.lookupAuthority inputs.vector.flow.id = f.lookupAuthority inputs.vector.flow.id ∧
      g.epoch = f.epoch
  | _ => True

/-- What a derivation in flight asserts: what it looked up, and what it stamped, is held. -/
def Call.Derives (f : Fabric) : Call → Prop
  | .fetch (.derive _) flow (.grant binding policy)
  | .fetch (.derive _) flow (.sample binding policy _)
  | .fetch (.derive _) flow (.stamp binding policy _) =>
    f.lookupAuthority flow = .ok (binding, policy)
  | .derive inputs _ => f.Holds inputs.vector
  | _ => True

theorem Call.Derives.undisturbed {l : Call} (h : l.Derives f) (hl : l.Undisturbed f g)
    (hboot : g.boot = f.boot) : l.Derives g := by
  unfold Call.Derives at h ⊢
  split at h
  · exact Eq.trans hl h
  · exact Eq.trans hl h
  · exact Eq.trans hl h
  · obtain ⟨binding, policy, hlookup, hflow, hresource, hpath, hpolicy, hepoch, hboot'⟩ := h
    obtain ⟨hsame, hepoch'⟩ := hl
    exact ⟨binding, policy, hsame.trans hlookup, hflow, hresource, hpath, hpolicy,
      hepoch.trans hepoch'.symm, hboot'.trans hboot.symm⟩
  · trivial

/-- A call that is not about to derive asserts nothing. -/
theorem Call.derives_of_leave (reply : Reply) : (Call.leave reply).Derives f := trivial

/-- The stamped vector is the authority held. -/
theorem Fabric.stampAuthority_holds {flow : FlowId} {binding : FlowBinding}
    {policy : PacingPolicy} {grant : RateGrant} {inputs : AuthorityInputs}
    (hlookup : f.lookupAuthority flow = .ok (binding, policy))
    (h : f.stampAuthority flow binding policy grant = .ok inputs) : f.Holds inputs.vector := by
  unfold Fabric.stampAuthority at h
  dsimp only at h
  split at h
  · cases h
  · cases h
    exact ⟨binding, policy, hlookup, rfl, rfl, rfl, rfl, rfl, rfl⟩

/-- Where `fetch_authority` returns to another operation, nothing is asserted. -/
theorem Call.derives_resume {current : StatusOr AuthorityInputs} {caller : Caller}
    (h : ∀ now inputs, caller = .derive now → current = .ok inputs → f.Holds inputs.vector) :
    (Call.resume current caller).Derives f := by
  unfold Call.resume
  cases caller with
  -- only a derivation goes on with what was fetched
  | derive now =>
    cases current with
    | error status => exact derives_of_leave _
    | ok inputs => exact h now inputs rfl rfl
  | applyBefore p =>
    cases current with
    | error status => exact derives_of_leave _
    | ok inputs =>
      dsimp only
      split
      · exact derives_of_leave _
      · trivial
  | applyUnverified i => trivial
  | applyAfter i status evidence => trivial
  | check c =>
    cases current with
    | error status => exact derives_of_leave _
    | ok inputs =>
      dsimp only
      split
      · trivial
      · split <;> trivial

/-- A step inside `fetch_authority` keeps the assertion of its derivation. -/
theorem Call.derives_fetch (caller : Caller) (flow : FlowId) (phase : Fetch)
    (h : (Call.fetch caller flow phase).Derives f) :
    (Call.fetchStep f a caller flow phase).2.Derives (Call.fetchStep f a caller flow phase).1 := by
  -- every refusal ends the derivation, so there is nothing left to assert
  have herror : ∀ {g : Fabric} (status : Status), (Call.resume (.error status) caller).Derives g :=
    fun status => derives_resume fun _ _ _ h => by cases h
  cases phase with
  | trust =>
    simp only [Call.fetchStep]
    split
    · cases caller <;> trivial
    · exact herror _
  | lookup =>
    simp only [Call.fetchStep]
    cases hlookup : f.lookupAuthority flow with
    | error status => exact herror status
    | ok found =>
      cases caller with
      | derive now => exact hlookup
      | _ => trivial
  | grant binding policy =>
    simp only [Call.fetchStep]
    cases Fabric.checkGrant a.grant with
    | error status => exact herror status
    | ok grant =>
      cases caller with
      | derive now => exact h
      | _ => trivial
  | sample binding policy grant =>
    simp only [Call.fetchStep]
    split
    · exact herror _
    · cases caller with
      | derive now => exact h
      | _ => trivial
  | stamp binding policy grant =>
    simp only [Call.fetchStep]
    refine derives_resume fun now inputs hcaller hstamp => ?_
    subst hcaller
    exact Fabric.stampAuthority_holds h hstamp

theorem Call.derives_withdrawing (todo : List Withdrawal) (reason : Bytes) (reply : Reply) :
    (Call.withdrawing todo reason reply).Derives f := by
  unfold Call.withdrawing
  split <;> trivial

theorem Call.derives_rebinding (todo : List BackendPtr) (epoch : Epoch) (reply : Reply) :
    (Call.rebinding todo epoch reply).Derives f := by
  unfold Call.rebinding
  split <;> trivial

/-- Every step keeps the assertion of its own call: only a step of `fetch_authority` leads
into a derivation past its look-up. -/
theorem Call.derives_step (k : Call) (h : k.Derives f) {k' : Call}
    (hk' : (Call.step f a k).2 = some k') : k'.Derives (Call.step f a k).1 := by
  cases k with
  | fetch caller flow phase =>
    obtain rfl := Option.some.inj hk'
    exact derives_fetch caller flow phase h
  | locked request now =>
    generalize (Call.step f a (.locked request now)).1 = g
    cases request <;> simp only [Call.step, Call.lockedStep] at hk'
    all_goals repeat' split at hk'
    all_goals first
      | exact Option.some.inj hk' ▸ derives_withdrawing ..
      | exact Option.some.inj hk' ▸ derives_rebinding ..
      | (obtain rfl := Option.some.inj hk'
         trivial)
      | cases hk'
  | enter request =>
    generalize (Call.step f a (.enter request)).1 = g
    cases request
    all_goals
      simp only [Call.step, Request.needsTrust] at hk'
      obtain rfl := Option.some.inj hk'
      trivial
  | withdraw todo reason reply =>
    exact Option.some.inj hk' ▸ derives_withdrawing ..
  | rebind todo epoch reply =>
    exact Option.some.inj hk' ▸ derives_rebinding ..
  | _ =>
    generalize hg : (Call.step f a _).1 = g
    clear hg
    simp only [Call.step] at hk'
    repeat' split at hk'
    all_goals first
      | (obtain rfl := Option.some.inj hk'
         trivial)
      | cases hk'

end

/-! ### Runs -/

/-- The step leaves the derivations of all other threads undisturbed. -/
def sparesDerivations (w : World) : Event Call Request Answers → Prop
  | .move i k a =>
    ∀ j l, j ≠ i → w.calls j = some l → l.Undisturbed w.shared (Call.step w.shared a k).1
  | _ => True

/-- A derivation in flight asserts the authority it found. -/
def heldDerivations : Outline Fabric Call where
  shared _ := True
  assertion f k := k.Derives f
  apart _ _ := True

theorem heldDerivations_stable : heldDerivations.Stable coordinator sparesDerivations where
  begins c i r _ _ _ := ⟨by cases r <;> trivial, fun _ _ _ => ⟨trivial, trivial⟩⟩
  -- the step of a call keeps its own assertion, the condition that of the others
  locally c i k a hc _ hk :=
    ⟨trivial, fun k' hk' => Call.derives_step k (hc.assertion i k hk) hk'⟩
  interference c i k a j l hc hok _ hji hl :=
    ⟨(hc.assertion j l hl).undisturbed (hok j l hji hl) (Call.step_frame _ a k).boot,
      fun _ _ => ⟨trivial, trivial⟩⟩
  restarts _ _ _ _ _ := trivial

theorem Fabric.issueEnvelope_ok {f : Fabric} {a : Answers} {now : Instant}
    {envelope issued : PacingEnvelope} (h : (f.issueEnvelope a now envelope).1 = .ok issued) :
    issued = envelope := by
  unfold Fabric.issueEnvelope at h
  split at h
  · cases h
  · dsimp only at h
    split at h
    · cases h
    · unfold Fabric.admitEnvelope at h
      dsimp only at h
      split at h
      · cases h
      · exact (Except.ok.inj h).symm

/-- An issued envelope carries the vector it was derived from. -/
theorem Fabric.deriveEnvelope_authority {f : Fabric} {a : Answers} {inputs : AuthorityInputs}
    {now : Instant} {envelope : PacingEnvelope}
    (h : (f.deriveEnvelope a inputs now).1 = .ok envelope) :
    envelope.authority = inputs.vector := by
  unfold Fabric.deriveEnvelope at h
  split at h
  · cases h
  · unfold Fabric.deriveEnvelopeInternal at h
    -- the derivation itself is kept abstract: only its outcome matters here
    generalize deriveCadence (derivationInput inputs) f.config.limits = derived at h
    generalize expiryNs f.config inputs.grant now = expires at h
    cases derived with
    | error status => cases h
    | ok outcome =>
      cases expires with
      | error status => cases h
      | ok expiry =>
        rw [issueEnvelope_ok h]
        rfl

/-- Over every run and any number of restarts, while no step disturbs a derivation in flight
of another thread: an envelope is inserted under the binding, the policy, the epoch and the
boot held at that step. -/
theorem derivations_current {w : World} {n : ℕ}
    (hrun : Run coordinator sparesDerivations World.initial n w) {i : ℕ}
    {inputs : AuthorityInputs} {now : Instant} (hcall : w.calls i = some (.derive inputs now))
    {a : Answers} {envelope : PacingEnvelope}
    (hissued : (w.shared.deriveEnvelope a inputs now).1 = .ok envelope) :
    w.shared.Holds envelope.authority := by
  rw [Fabric.deriveEnvelope_authority hissued]
  exact (heldDerivations_stable.holds (Outline.holds_idle trivial) hrun).assertion i _ hcall

namespace Scenario

/-- A derivation about to insert its envelope. -/
def derivationPending : List (Action Request Answers) :=
  calls 0 (.publishPolicy policy) 4 ++ calls 0 (.bindFlow binding) 4 ++
    calls 0 (.deriveEnvelope ⟨1⟩) 9

/-- The same, and another thread binds the flow again before it does. -/
def overtaken : List (Action Request Answers) :=
  derivationPending ++ calls 1 (.bindFlow { binding with generation := ⟨2⟩ }) 4

/-- The envelope a thread is about to insert, with its derivation. -/
def inserting (w : World) (thread : ℕ) : Option (AuthorityInputs × Instant × PacingEnvelope) :=
  match w.calls thread with
  | some (.derive inputs now) =>
    match (w.shared.deriveEnvelope answers inputs now).1 with
    | .ok envelope => some (inputs, now, envelope)
    | .error _ => none
  | _ => none

theorem of_inserting {w : World} {thread : ℕ} (h : (inserting w thread).isSome = true) :
    ∃ inputs now envelope, inserting w thread = some (inputs, now, envelope) ∧
      w.calls thread = some (.derive inputs now) ∧
      (w.shared.deriveEnvelope answers inputs now).1 = .ok envelope := by
  obtain ⟨⟨inputs, now, envelope⟩, hx⟩ := Option.isSome_iff_exists.1 h
  refine ⟨inputs, now, envelope, hx, ?_⟩
  unfold inserting at hx
  split at hx
  · rename_i hcall
    split at hx
    · rename_i hissued
      obtain ⟨rfl, rfl, rfl⟩ : _ = inputs ∧ _ = now ∧ _ = envelope := by simpa using hx
      exact ⟨hcall, hissued⟩
    · cases hx
  · cases hx

/-- A step of thread `0`, as a test. -/
def byThreadZero (_ : World) : Event Call Request Answers → Bool
  | .start i _ | .move i _ _ => i == 0
  | .restart => false

theorem byThread_of_byThreadZero (w : World) (e : Event Call Request Answers)
    (h : byThreadZero w e = true) : byThread 0 w e := by
  cases e with
  | start i r => simpa [byThreadZero, byThread] using h
  | move i k a => simpa [byThreadZero, byThread] using h
  | restart => cases h

/-- The steps of one thread disturb no derivation of another. -/
theorem run_undisturbed {schedule : List (Action Request Answers)}
    (h : coordinator.allows byThreadZero started schedule = true) :
    ∃ n, Run coordinator sparesDerivations World.initial n
      (coordinator.exec started schedule) := by
  obtain ⟨n, hn⟩ := Program.run_of_allows (P := coordinator) byThread_of_byThreadZero schedule h
  refine run_started trivial (@Run.allow _ _ _ _ _ _ sparesDerivations _ _ _
    (fun m d e hrun hok => ?_) hn)
  cases e with
  | move i k a =>
    intro j l hji hl
    obtain rfl : i = 0 := hok
    rw [hrun.others (fun j _ => rfl) j hji] at hl
    cases hl
  | _ => trivial

end Scenario

/-- Under the calls of a single thread, an envelope is inserted under the authority held. -/
theorem derivations_current_alone :
    ∃ inputs now envelope,
      (coordinator.exec Scenario.started Scenario.derivationPending).calls 0 =
        some (.derive inputs now) ∧
      ((coordinator.exec Scenario.started Scenario.derivationPending).shared.deriveEnvelope
        Scenario.answers inputs now).1 = .ok envelope ∧
      (coordinator.exec Scenario.started Scenario.derivationPending).shared.Holds
        envelope.authority := by
  obtain ⟨inputs, now, envelope, -, hcall, hissued⟩ := @Scenario.of_inserting
    (coordinator.exec Scenario.started Scenario.derivationPending) 0 (by decide +kernel)
  obtain ⟨n, hn⟩ := @Scenario.run_undisturbed Scenario.derivationPending
    (by decide +kernel)
  exact ⟨inputs, now, envelope, hcall, hissued, derivations_current hn hcall hissued⟩

/-- An envelope inserted under the first generation of a binding after another thread has
bound the flow again. -/
theorem derivation_overtaken :
    ∃ n w, Run coordinator anyStep World.initial n w ∧
      ∃ i inputs now a envelope, w.calls i = some (.derive inputs now) ∧
        (w.shared.deriveEnvelope a inputs now).1 = .ok envelope ∧
        ¬ w.shared.Holds envelope.authority := by
  obtain ⟨n, hn⟩ := coordinator.run_exec Scenario.started Scenario.overtaken
  obtain ⟨m, hm⟩ := @Scenario.run_started anyStep trivial _ _
    (hn.mono fun _ _ _ => trivial)
  obtain ⟨inputs, now, envelope, hinserting, hcall, hissued⟩ := @Scenario.of_inserting
    (coordinator.exec Scenario.started Scenario.overtaken) 0 (by decide +kernel)
  refine ⟨m, _, hm, 0, inputs, now, Scenario.answers, envelope, hcall, hissued, ?_⟩
  rintro ⟨binding, policy, hlookup, hgeneration, -⟩
  have hstale : (Scenario.inserting (coordinator.exec Scenario.started Scenario.overtaken) 0).all
      (fun x => match (coordinator.exec Scenario.started
          Scenario.overtaken).shared.lookupAuthority x.2.2.authority.flow.id with
        | .ok (binding, _) => x.2.2.authority.flow.generation != binding.generation
        | .error _ => false) = true := by decide +kernel
  rw [hinserting, Option.all_some] at hstale
  dsimp only at hstale
  rw [hlookup] at hstale
  simp [hgeneration] at hstale

end Pacing
