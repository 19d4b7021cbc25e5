import PacingFabric.Theorems.Commits
import PacingFabric.Theorems.Duplicates
import PacingFabric.Theorems.Identities
import PacingFabric.Theorems.Locals

/-!
# The backend behind an identity

An attempt names the backend it was reserved with by identity and generation, and says
whether that backend is synthetic. `apply_envelope` reads back from the handle it reserved
with, which may describe itself otherwise by then; `verify_attempt` and `revalidate` read back
from whatever handle is registered under the identity. Either way the evidence is compared with
the record by identity alone.

## Main definitions

* `truthful`: evidence says what the backend is that was asked.
* `Call.mistakes`: a readback confirms an attempt by a backend of another generation or nature.

## Main results

* `applied_on_own_evidence`: without such a readback an attempt becomes `Applied` only on
  evidence of its own backend, and its label fits the kind of that evidence.
* `applied_on_foreign_evidence`: an attempt on a real backend, labelled `Verified` on the
  evidence of a synthetic backend of the next generation.
-/

namespace Pacing

open Interleaving

/-- The kind of evidence a backend of this nature produces. -/
def BackendDescriptor.readbackKind (d : BackendDescriptor) : EvidenceKind :=
  if d.nature == .synthetic then .syntheticReadback else .backendReadback

/-- The kind of evidence the label of an applied attempt stands for. -/
def ApplicationRecord.readbackKind (r : ApplicationRecord) : EvidenceKind :=
  if r.backendSynthetic then .syntheticReadback else .backendReadback

/-- The evidence says what the backend is that produced it. -/
structure ReadbackEvidence.Truthful (e : ReadbackEvidence) (d : BackendDescriptor) : Prop where
  backend : e.backend = d.ref
  kind : e.kind = d.readbackKind

/-- Trusted evidence is that of the handle that was asked, as it describes itself then. -/
def truthful : Event Call Request Answers → Prop
  | .move _ k a => ∀ b request, k.external = some (.readback b request) →
      a.evidence.trusted a.status = true → a.evidence.Truthful (a.describe b)
  | _ => True

/-- The evidence confirms the record, but its backend is of another generation or nature than
the record names. -/
def ApplicationRecord.Mistaken (r : ApplicationRecord) (cadence : Cadence)
    (evidence : ReadbackEvidence) (d : BackendDescriptor) : Prop :=
  r.matches_ cadence evidence = true ∧
    ¬ (d.ref.generation = r.backend.generation ∧ d.readbackKind = r.readbackKind)

/-- Trusted evidence confirms an attempt by a backend that is not the one of its record. -/
def Call.mistakes (f : Fabric) (a : Answers) : Call → Prop
  | .readback i => a.evidence.trusted a.status = true ∧
      ∃ r, f.attempts.record i.request.attempt = some r ∧
        r.Mistaken i.envelope.cadence a.evidence (a.describe i.backend)
  | .readbackCheck c b _ => a.evidence.trusted a.status = true ∧
      c.record.Mistaken c.envelope.cadence a.evidence (a.describe b)
  | _ => False

/-- Truthful steps in which no readback mistakes a backend, and starts that can advance. -/
def ownHandles (w : World) : Event Call Request Answers → Prop
  | .start _ _ => True
  | .move i k a => truthful (.move i k a) ∧ ¬ k.mistakes w.shared a
  | .restart => Fabric.AdvancesOver w.shared.storage.disk

namespace ApplicationRecord

variable {r s : ApplicationRecord}

theorem SameWork.readbackKind (h : r.SameWork s) : s.readbackKind = r.readbackKind := by
  unfold ApplicationRecord.readbackKind
  rw [h.backendSynthetic]

/-- The comparison with the evidence reads only what an attempt is bound to. -/
theorem SameWork.matches_ (h : r.SameWork s) (cadence : Cadence) (evidence : ReadbackEvidence) :
    s.matches_ cadence evidence = r.matches_ cadence evidence := by
  unfold ApplicationRecord.matches_
  rw [h.attempt, h.backend]

/-- Matching evidence names the backend of the record by its identity. -/
theorem backend_of_matches {cadence : Cadence} {evidence : ReadbackEvidence}
    (h : r.matches_ cadence evidence = true) : evidence.backend.id = r.backend.id := by
  unfold ApplicationRecord.matches_ at h
  simp only [Bool.and_eq_true, beq_iff_eq] at h
  exact h.1.1.1.1.2

/-- Truthful evidence that confirms a record without mistaking its backend is of that
backend. -/
theorem own_of_not_mistaken {cadence : Cadence} {evidence : ReadbackEvidence}
    {d : BackendDescriptor} (htrue : evidence.Truthful d)
    (hown : ¬ r.Mistaken cadence evidence d) (hmatches : r.matches_ cadence evidence = true) :
    evidence.backend = r.backend ∧ evidence.kind = r.readbackKind := by
  obtain ⟨hbackend, hkind⟩ := htrue
  have hsame : d.ref.generation = r.backend.generation ∧ d.readbackKind = r.readbackKind := by
    by_contra hother
    exact hown ⟨hmatches, hother⟩
  refine ⟨?_, hkind.trans hsame.2⟩
  have hid := backend_of_matches hmatches
  rw [hbackend] at hid ⊢
  calc d.ref = ⟨d.ref.id, d.ref.generation⟩ := rfl
    _ = r.backend := by rw [hid, hsame.1]

end ApplicationRecord

section
variable {f : Fabric} {a : Answers} {k k' : Call}

/-- What the calls in flight assert. An apply has reserved its attempt, a check holds a record
of the work its attempt is bound to, and evidence that is about to be finalized and confirms
the record is that of the backend of the record. -/
structure Call.Owns (f : Fabric) (k : Call) : Prop where
  installing : ∀ i, k.installing = some i → ∃ r, f.attempts.record i.request.attempt = some r
  answered : ∀ i x, k.installing = some i → k.answered = some x → x.2.trusted x.1 = true →
    ∃ r, f.attempts.record i.request.attempt = some r ∧
      (r.matches_ i.envelope.cadence x.2 = true →
        x.2.backend = r.backend ∧ x.2.kind = r.readbackKind)
  checking : ∀ c, k.checking = some c → ∃ r, f.attempts.record c.id = some r ∧
    c.record.SameWork r
  final : ∀ c status evidence current, k = .finalizeCheck c status evidence current →
    (c.kind = .revalidate → evidence.trusted status = true) ∧
    (evidence.trusted status = true → c.record.matches_ c.envelope.cadence evidence = true →
      evidence.backend = c.record.backend ∧ evidence.kind = c.record.readbackKind)

namespace Call

theorem Owns.of_idle (h : k.idle) : k.Owns f := by
  obtain ⟨-, hinstalling, -, hchecking⟩ := h
  refine ⟨fun i hi => ?_, fun i x hi => ?_, fun c hc => ?_, ?_⟩
  · rw [hinstalling] at hi
    cases hi
  · rw [hinstalling] at hi
    cases hi
  · rw [hchecking] at hc
    cases hc
  · rintro c status evidence current rfl
    cases hchecking

theorem Owns.kept {l : Call} (h : l.Owns f) (hwf : f.attempts.WellFormed) (a : Answers)
    (k : Call) : l.Owns (step f a k).1 := by
  refine ⟨fun i hi => ?_, fun i x hi hx htrusted => ?_, fun c hc => ?_, h.final⟩
  · obtain ⟨r, hr⟩ := h.installing i hi
    obtain ⟨r', hr', -⟩ := record_kept hwf a k hr
    exact ⟨r', hr'⟩
  · obtain ⟨r, hr, hown⟩ := h.answered i x hi hx htrusted
    obtain ⟨r', hr', hsame⟩ := record_kept hwf a k hr
    rw [← hsame.matches_, ← hsame.backend, ← hsame.readbackKind] at hown
    exact ⟨r', hr', hown⟩
  · obtain ⟨r, hr, hsame⟩ := h.checking c hc
    obtain ⟨r', hr', hsame'⟩ := record_kept hwf a k hr
    exact ⟨r', hr', hsame.trans hsame'⟩

theorem Owns.step (h : k.Owns f) (hwf : f.attempts.WellFormed)
    (htrue : ∀ b request, k.external = some (.readback b request) →
      a.evidence.trusted a.status = true → a.evidence.Truthful (a.describe b))
    (howns : ¬ k.mistakes f a) (hk' : (step f a k).2 = some k') :
    k'.Owns (Call.step f a k).1 := by
  have hcarries := step_carries k hk'
  have hkept := h.kept hwf a k
  refine ⟨fun i hi => ?_, fun i x hi hx htrusted => ?_, fun c hc => ?_,
    fun c status evidence current hfinal => ?_⟩
  · rcases hcarries.installing i hi with hi | ⟨p, rfl, rfl, -⟩
    · exact hkept.installing i hi
    -- the reservation has just inserted the record
    · obtain ⟨hfresh, hatt, -⟩ := reserve_installs hwf hk'
      rw [hatt, reservedLedger_record hwf hfresh]
      exact ⟨_, Function.update_self ..⟩
  · rcases hcarries.answered x hx with hbefore | ⟨j, rfl, rfl⟩
    · rcases hcarries.installing i hi with hi | ⟨p, rfl, -⟩
      · exact hkept.answered i x hi hbefore htrusted
      · cases hbefore
    · rcases hcarries.installing i hi with hi | ⟨p, hp, -⟩
      · obtain rfl := Option.some.inj hi
        obtain ⟨r, hr⟩ := h.installing j rfl
        refine ⟨r, hr, ApplicationRecord.own_of_not_mistaken (htrue _ _ rfl htrusted) ?_⟩
        exact fun hmistaken => howns ⟨htrusted, r, hr, hmistaken⟩
      · cases hp
  · rcases hcarries.checking c hc with hc | ⟨rfl, -, b, hopen, -⟩ | ⟨rfl, -, hopen⟩
    · exact hkept.checking c hc
    · rw [(step_frame f a _).attempts rfl]
      exact ⟨_, (Fabric.openVerify_ok hopen).1, .refl _⟩
    · rw [(step_frame f a _).attempts rfl]
      exact ⟨_, (Fabric.openRevalidate_ok hopen).1, .refl _⟩
  · obtain ⟨b, rfl, rfl, rfl, hrevalidate⟩ := hcarries.finalizes c status evidence current hfinal
    refine ⟨hrevalidate, fun htrusted =>
      ApplicationRecord.own_of_not_mistaken (htrue _ _ rfl htrusted) ?_⟩
    exact fun hmistaken => howns ⟨htrusted, hmistaken⟩

/-- What a call finalizes is evidence of the backend of the record, and of its kind. -/
theorem Owns.finalizes (h : k.Owns f) {x : Finalization} {r : ApplicationRecord}
    (hfinal : k.Finalizes f x r) :
    x.evidence.backend = r.backend ∧ x.evidence.kind = r.readbackKind := by
  have hx := hfinal.finalization
  cases k with
  | commitVerified i status evidence current =>
    obtain rfl := Option.some.inj hx
    obtain ⟨-, -, htrusted⟩ := hfinal.apply _ _ _ _ rfl
    obtain ⟨r', hr', hown⟩ := h.answered i _ rfl rfl htrusted
    obtain rfl := Option.some.inj (hr'.symm.trans hfinal.record)
    exact hown hfinal.matches_
  | finalizeCheck c status evidence current =>
    obtain rfl := Option.some.inj hx
    obtain ⟨hrevalidate, hown⟩ := h.final _ _ _ _ rfl
    have htrusted : evidence.trusted status = true := by
      cases hkind : c.kind with
      | verify => exact hfinal.verify _ _ _ _ rfl hkind
      | revalidate => exact hrevalidate hkind
    obtain ⟨r', hr', hsame⟩ := h.checking c rfl
    obtain rfl := Option.some.inj (hr'.symm.trans hfinal.record)
    have hmatches := hfinal.matches_
    rw [hsame.matches_] at hmatches
    obtain ⟨hbackend, hkind⟩ := hown htrusted hmatches
    exact ⟨hbackend.trans hsame.backend.symm, hkind.trans hsame.readbackKind.symm⟩
  | _ => cases hx

end Call

/-- The ledger is sound, and what is applied was applied on evidence of its own kind. -/
structure Fabric.Evidenced (f : Fabric) : Prop where
  sound : f.Sound
  applied : ∀ id r, f.attempts.record id = some r → r.state = .applied →
    r.evidenceKind = r.readbackKind

theorem Fabric.Evidenced.step (h : f.Evidenced) (hk : k.Owns f) (a : Answers) :
    (Call.step f a k).1.Evidenced := by
  refine ⟨h.sound.step a k, fun id r' hr' happlied => ?_⟩
  have hmove := (Call.step_moves h.sound.wellFormed a k).record id
  rw [hr'] at hmove
  generalize (Call.step f a k).2 = o at hmove
  cases hr : f.attempts.record id with
  | none =>
    rw [hr] at hmove
    cases hmove
    cases happlied
  | some r =>
    rw [hr] at hmove
    by_cases hmoved : r' = { r with requiresRevalidation := r'.requiresRevalidation }
    · have hbefore := h.applied id r hr
      rw [hmoved] at happlied ⊢
      exact hbefore happlied
    · have hid := h.sound.wellFormed.record_attempt hr
      obtain ⟨x, -, hfinal, hkind⟩ := hmove.applied (hid ▸ hr) happlied hmoved
      rw [hkind, (hk.finalizes hfinal).2, hmove.sameWork.readbackKind]

theorem Fabric.LedgerRecovered.evidenced (h : f.LedgerRecovered) : f.Evidenced := by
  refine ⟨⟨h.wellFormed, fun id r hr => ?_⟩, fun id r hr happlied => ?_⟩
  · obtain ⟨r₀, rfl⟩ := h.recovered id r hr
    rw [ApplicationRecord.Labelled, ApplicationRecord.recovered_effect,
      ApplicationRecord.recovered_labelFor]
  · obtain ⟨r₀, rfl⟩ := h.recovered id r hr
    have hlabel := r₀.recovered_labelFor
    rw [happlied] at hlabel
    unfold ApplicationRecord.labelFor at hlabel
    dsimp only at hlabel
    split at hlabel <;> cases hlabel

end

/-- Evidenced ledgers, and the assertion of every call in flight. -/
def owning : Outline Fabric Call where
  shared f := f.Evidenced
  assertion f k := k.Owns f
  apart _ _ := True

theorem owning_stable : owning.Stable coordinator ownHandles where
  begins c i r _ _ _ := ⟨.of_idle (Call.idle_begin r), fun _ _ _ => ⟨trivial, trivial⟩⟩
  locally c i k a hc hok hk := by
    have howns : k.Owns c.shared := hc.assertion i k hk
    have hwf := hc.shared.sound.wellFormed
    exact ⟨hc.shared.step howns a, fun k' hk' => howns.step hwf hok.1 hok.2 hk'⟩
  interference c i k a j l hc _ _ _ hl :=
    ⟨(hc.assertion j l hl).kept hc.shared.sound.wellFormed a k, fun _ _ => ⟨trivial, trivial⟩⟩
  restarts c s _ hok hr := by
    obtain ⟨config, a, rfl⟩ := hr
    exact (Fabric.initializeFabric_ledgerRecovered a config hok).evidenced

/-- In every run with truthful backends in which no readback mistakes one: an attempt becomes
`Applied` only on evidence of the identity and the generation of its backend, and an applied
attempt is labelled `Verified` only on the readback of a real backend and `SyntheticVerified`
only on that of a synthetic one. -/
theorem applied_on_own_evidence {w : World} {n : ℕ}
    (h : Run coordinator ownHandles World.initial n w) :
    (∀ i k a id, w.calls i = some k → k.Applies w.shared a id →
      ∃ x r, k.finalization = some x ∧ x.id = id ∧ w.shared.attempts.record id = some r ∧
        x.evidence.backend.id = r.backend.id ∧
        x.evidence.backend.generation = r.backend.generation) ∧
      ∀ id r, w.shared.attempts.record id = some r → r.state = .applied →
        (r.effect = .verified → r.evidenceKind = .backendReadback) ∧
        (r.effect = .syntheticVerified → r.evidenceKind = .syntheticReadback) := by
  have hholds : owning.Holds w := owning_stable.holds
    (Outline.holds_idle (Fabric.ledgerRecovered_of_empty rfl).evidenced) h
  have hshared : w.shared.Evidenced := hholds.shared
  refine ⟨fun i k a id hk happlies => ?_, fun id r hr happlied => ?_⟩
  · obtain ⟨x, r, rfl, hfinal⟩ := happlies.finalizes hshared.sound.wellFormed
    have hbackend := ((hholds.assertion i k hk).finalizes hfinal).1
    exact ⟨x, r, hfinal.finalization, rfl, hfinal.record, congrArg GenRef.id hbackend,
      congrArg GenRef.generation hbackend⟩
  · have hlabel := hshared.sound.labelled id r hr
    rw [ApplicationRecord.Labelled, happlied] at hlabel
    rw [hlabel, hshared.applied id r hr happlied]
    unfold ApplicationRecord.labelFor ApplicationRecord.readbackKind
    cases r.backendSynthetic <;> simp

namespace Scenario

/-- One object is a real backend, any other a synthetic one of the next generation. -/
def swapped (b : BackendPtr) : BackendDescriptor :=
  if b.object = 0 then { descriptor with nature := .real }
  else { descriptor with ref := ⟨⟨1⟩, ⟨2⟩⟩ }

/-- No readback has anything to say. -/
def silent : Answers := { answers with describe := swapped, evidence := {} }

/-- The real backend reads the cadence back. -/
def genuine : Answers := { silent with evidence := { evidence with kind := .backendReadback } }

/-- The synthetic backend reads the cadence back. -/
def foreign : Answers := { silent with evidence := { evidence with backend := ⟨⟨1⟩, ⟨2⟩⟩ } }

def silently (request : Request) (n : ℕ) : List (Action Request Answers) :=
  .start 0 request :: List.replicate n (.move 0 silent)

/-- An attempt that is applied on the real backend without evidence. -/
def appliedSilently : List (Action Request Answers) :=
  silently (.publishPolicy policy) 4 ++ silently (.bindFlow binding) 4 ++
    silently (.registerBackend (some {})) 6 ++ silently (.deriveEnvelope ⟨1⟩) 11 ++
    silently (.applyEnvelope ⟨⟨1⟩, ⟨1⟩⟩ ⟨1⟩ {}) 21

/-- A verification of it reads the real backend back. -/
def verifyingGenuine : List (Action Request Answers) :=
  appliedSilently ++ .start 0 (.verifyAttempt ⟨1⟩) :: List.replicate 12 (.move 0 genuine)

/-- The backend is unregistered and another one is registered under its identity, which a
verification has read back. -/
def verifyingForeign : List (Action Request Answers) :=
  appliedSilently ++ silently (.unregisterBackend ⟨1⟩) 3 ++
    silently (.registerBackend (some ⟨1⟩)) 6 ++
    .start 0 (.verifyAttempt ⟨1⟩) :: List.replicate 10 (.move 0 foreign)

/-- `truthful` within one incarnation, as a test. -/
def tellsTruth (_ : World) : Event Call Request Answers → Bool
  | .start _ _ => true
  | .move _ k a =>
    match k.external with
    | some (.readback b _) => !a.evidence.trusted a.status ||
        (a.evidence.backend == (a.describe b).ref && a.evidence.kind == (a.describe b).readbackKind)
    | _ => true
  | .restart => false

theorem truthful_of_tellsTruth (w : World) (e : Event Call Request Answers)
    (h : tellsTruth w e = true) : truthful e ∧ withinIncarnation w e := by
  cases e with
  | start i r => exact ⟨trivial, trivial⟩
  | restart => cases h
  | move i k a =>
    refine ⟨fun b request hread htrusted => ?_, trivial⟩
    unfold tellsTruth at h
    dsimp only at h
    rw [hread] at h
    dsimp only at h
    rw [htrusted, Bool.not_true, Bool.false_or, Bool.and_eq_true, beq_iff_eq, beq_iff_eq] at h
    exact ⟨h.1, h.2⟩

/-- `tellsTruth`, no apply reads anything it trusts, and no check reads a backend that does not
fit its record. -/
def readsOwn (w : World) (e : Event Call Request Answers) : Bool :=
  tellsTruth w e &&
    match e with
    | .move _ (.readback _) a => !a.evidence.trusted a.status
    | .move _ (.readbackCheck c b _) a =>
      (a.describe b).ref.generation == c.record.backend.generation &&
        (a.describe b).readbackKind == c.record.readbackKind
    | _ => true

theorem ownHandles_of_readsOwn (w : World) (e : Event Call Request Answers)
    (h : readsOwn w e = true) : ownHandles w e := by
  unfold readsOwn at h
  rw [Bool.and_eq_true] at h
  have htruthful := (truthful_of_tellsTruth w e h.1).1
  cases e with
  | start i r => trivial
  | restart => cases h.1
  | move i k a =>
    refine ⟨htruthful, ?_⟩
    cases k with
    | readback i =>
      rintro ⟨htrusted, -⟩
      have hnot := h.2
      simp [htrusted] at hnot
    | readbackCheck c b current =>
      rintro ⟨-, -, hother⟩
      have hown := h.2
      simp only [Bool.and_eq_true, beq_iff_eq] at hown
      exact hother hown
    | _ => exact id

/-- The call is about to apply the first attempt on evidence of another generation. -/
def appliesForeign (f : Fabric) : Option Call → Bool
  | some k => k.appliesTest f foreign ⟨1⟩ && (f.attempts.record ⟨1⟩).any (fun r =>
      k.finalization.any fun x => x.id == ⟨1⟩ &&
        x.evidence.backend.generation != r.backend.generation)
  | none => false

theorem of_appliesForeign {f : Fabric} {o : Option Call} (h : appliesForeign f o = true) :
    ∃ k x r, o = some k ∧ k.Applies f foreign ⟨1⟩ ∧ k.finalization = some x ∧ x.id = ⟨1⟩ ∧
      f.attempts.record ⟨1⟩ = some r ∧
      x.evidence.backend.generation ≠ r.backend.generation := by
  unfold appliesForeign at h
  split at h
  · rename_i k
    simp only [Bool.and_eq_true, Option.any_eq_true, beq_iff_eq, bne_iff_ne] at h
    obtain ⟨happlies, r, hr, x, hx, hid, hgeneration⟩ := h
    exact ⟨k, x, r, rfl, Call.applies_of_test happlies, hx, hid, hr, hgeneration⟩
  · cases h

end Scenario

/-- A verification that reads back the backend of its attempt. -/
theorem applied_on_own_evidence_genuine :
    ∃ r, (coordinator.exec Scenario.started
        Scenario.verifyingGenuine).shared.attempts.record ⟨1⟩ = some r ∧
      r.state = .applied ∧ r.effect = .verified ∧ r.evidenceKind = .backendReadback := by
  obtain ⟨n, hn⟩ := Program.run_of_allows (P := coordinator) Scenario.ownHandles_of_readsOwn
    Scenario.verifyingGenuine (c := Scenario.started) (by decide +kernel)
  obtain ⟨m, hm⟩ := @Scenario.run_started ownHandles Fabric.advancesOver_empty _ _ hn
  have hverified : ((coordinator.exec Scenario.started
      Scenario.verifyingGenuine).shared.attempts.record ⟨1⟩).map (fun r => (r.state, r.effect)) =
        some (.applied, .verified) := by decide +kernel
  obtain ⟨r, hr, hlabel⟩ := Option.map_eq_some_iff.1 hverified
  obtain ⟨happlied, heffect⟩ := Prod.mk.inj hlabel
  exact ⟨r, hr, happlied, heffect, ((applied_on_own_evidence hm).2 _ r hr happlied).1 heffect⟩

/-- With truthful backends: the identity of a real backend passes to a synthetic one of the
next generation, on whose evidence a verification applies the attempt, labelled `Verified`. -/
theorem applied_on_foreign_evidence :
    ∃ (config : FabricConfig) (disk : Disk) (a : Answers) (w w' : World) (n m : ℕ),
      ((Fabric.construct config disk).initializeFabric a).1.isOk = true ∧
      Run coordinator (fun w e => truthful e ∧ withinIncarnation w e)
        (.idle ((Fabric.construct config disk).initializeFabric a).2) n w ∧
      Run coordinator (fun w e => truthful e ∧ withinIncarnation w e) w m w' ∧
      (∃ k b x r, w.calls 0 = some k ∧ k.Applies w.shared b ⟨1⟩ ∧ k.finalization = some x ∧
        x.id = ⟨1⟩ ∧ w.shared.attempts.record ⟨1⟩ = some r ∧
        x.evidence.backend.generation ≠ r.backend.generation) ∧
      ∃ r, w'.shared.attempts.record ⟨1⟩ = some r ∧ r.state = .applied ∧ r.effect = .verified ∧
        r.evidenceKind = .syntheticReadback := by
  obtain ⟨n, hn⟩ := Program.run_of_allows (P := coordinator) Scenario.truthful_of_tellsTruth
    Scenario.verifyingForeign (c := Scenario.started) (by decide +kernel)
  obtain ⟨m, hm⟩ := Program.run_of_allows (P := coordinator) Scenario.truthful_of_tellsTruth
    [.move 0 Scenario.foreign] (c := coordinator.exec Scenario.started Scenario.verifyingForeign)
    (by decide +kernel)
  obtain ⟨k, x, r, hk, happlies, hx, hid, hr, hgeneration⟩ := @Scenario.of_appliesForeign
    (coordinator.exec Scenario.started Scenario.verifyingForeign).shared
    ((coordinator.exec Scenario.started Scenario.verifyingForeign).calls 0) (by decide +kernel)
  have hverified : ((coordinator.exec (coordinator.exec Scenario.started
      Scenario.verifyingForeign) [.move 0 Scenario.foreign]).shared.attempts.record ⟨1⟩).map
        (fun r => (r.state, r.effect, r.evidenceKind)) =
          some (.applied, .verified, .syntheticReadback) := by decide +kernel
  generalize coordinator.exec (coordinator.exec Scenario.started Scenario.verifyingForeign)
    [.move 0 Scenario.foreign] = w' at hm hverified
  generalize coordinator.exec Scenario.started Scenario.verifyingForeign = w at *
  obtain ⟨r', hr', hlabel⟩ := Option.map_eq_some_iff.1 hverified
  obtain ⟨happlied, hlabel⟩ := Prod.mk.inj hlabel
  obtain ⟨heffect, hkind⟩ := Prod.mk.inj hlabel
  exact ⟨Scenario.config, {}, Scenario.answers, w, w', n, m, by decide +kernel, hn, hm,
    ⟨k, Scenario.foreign, x, r, hk, happlies, hx, hid, hr, hgeneration⟩, r', hr', happlied,
    heffect, hkind⟩

end Pacing
