import PacingFabric.Theorems.Closed
import PacingFabric.Theorems.Refusals

/-!
# Capacity of the envelope table

Eviction marks a slot dead; the vector shrinks only when a compaction runs. The capacity
test of a derivation looks at the length of the vector, so what eviction frees is not
available to the call that evicted.

## Main results

* `derive_refused_iff`: a derivation is refused for a full table exactly when the vector is
  full, whether or not something was evictable.
* `full_only_if_busy_iff`: when such a refusal means that every envelope is in use.
* `full_with_evictable`: a refusal beside an envelope that nothing uses.
-/

namespace Pacing

open Interleaving

/-! ### The shape of eviction -/

namespace Fabric

variable (f : Fabric)

/-- Eviction never shrinks the vector. -/
theorem length_evictOne :
    f.evictOne.envelopes.entries.length = f.envelopes.entries.length := by
  unfold evictOne
  dsimp only
  split
  · exact List.length_set
  · rfl

theorem length_evictAndCompact : f.evictAndCompact.envelopes.entries.length =
    f.compactTables.envelopes.entries.length := by
  unfold evictAndCompact
  dsimp only
  split
  · rfl
  · exact length_evictOne _

/-- The slots the table still has once the call has compacted what the thresholds let it. -/
def slotsKept : ℕ :=
  if f.envelopes.dead * compactionTrigger > f.envelopes.entries.length ∧
      f.envelopes.entries.length > 1024 then (f.envelopes.entries.filter (·.live)).length
  else f.envelopes.entries.length

theorem length_compactTables : f.compactTables.envelopes.entries.length = f.slotsKept := by
  unfold compactTables slotsKept
  dsimp only
  split_ifs <;> rfl

/-! ### Refusals for a full table -/

/-- The slots that are left after compaction, dead ones included, reach the limit. -/
def tableFull : Prop := f.config.limits.maxEnvelopes.toNat ≤ f.slotsKept

/-- Every live envelope has an attempt in flight. -/
def AllBusy : Prop :=
  ∀ e ∈ f.envelopes.entries, e.live = true →
    ∃ id ∈ f.attempts.byEnvelope e.envelope.ref.id.value,
      ∃ r, f.attempts.record id = some r ∧ r.state.isTerminal = false

/-- No live envelope is one that eviction would take. -/
theorem allBusy_iff : f.AllBusy ↔ ∀ e ∈ f.envelopes.entries, f.evictable e = false := by
  unfold AllBusy evictable AttemptLedger.allTerminal AttemptLedger.record
  refine forall₂_congr fun e _ => ?_
  rw [Bool.and_eq_false_imp, List.all_eq_false]
  refine imp_congr_right fun _ => exists_congr fun id => and_congr_right fun _ => ?_
  cases f.attempts.find id with
  | none => simp
  | some slot => simp

variable (a : Answers) (inputs : AuthorityInputs) (now : Instant)

/-- The envelope the derivation would assemble next. -/
def nextEnvelope (outcome : DerivationOutcome) (expiry : UInt64) : PacingEnvelope :=
  assembleEnvelope f.config inputs outcome now expiry a.synthetic f.envelopeIds.next.1
    f.provenanceIds.next.1

/-- The derivation gets past its own checks and the journal. -/
def reachesTable : Prop :=
  f.running = true ∧ ∃ outcome expiry payload,
    deriveCadence (derivationInput inputs) f.config.limits = .ok outcome ∧
    expiryNs f.config inputs.grant now = .ok expiry ∧
    encodeEnvelopePayload (f.nextEnvelope a inputs now outcome expiry) = .ok payload ∧
    (f.journal a .envelope payload now.ns).1.isOk = true

/-- The status of a derivation the table has no room for. -/
def fullTable : Status :=
  .of .resourceExhausted "envelope table is at capacity and nothing is evictable"

theorem admitEnvelope_refused_iff (envelope : PacingEnvelope) :
    (f.admitEnvelope envelope).1 = .error fullTable ↔ f.tableFull := by
  unfold admitEnvelope tableFull
  rw [← length_compactTables, ← length_evictAndCompact]
  have hconfig : f.evictAndCompact.config = f.config := by
    obtain ⟨_, h⟩ := f.evictAndCompact_frame
    rw [h]
  dsimp only
  rw [hconfig]
  split_ifs with h
  · exact iff_of_true rfl h
  · exact iff_of_false (by simp) h

/-- Nothing before the table is refused with the status of a full table. -/
theorem ne_fullTable_of_code {s : Status} (h : s.code ≠ .resourceExhausted) : s ≠ fullTable := by
  rintro rfl
  exact h rfl

theorem ne_fullTable_of_journal {s : Status} (h : JournalStatus s) : s ≠ fullTable := by
  rintro rfl
  rcases h with h | h | h
  · exact h rfl
  · exact absurd h (by decide)
  · exact absurd h (by decide)

theorem issueEnvelope_refused_iff (envelope : PacingEnvelope) :
    (f.issueEnvelope a now envelope).1 = .error fullTable ↔
      (∃ payload, encodeEnvelopePayload envelope = .ok payload ∧
        (f.journal a .envelope payload now.ns).1.isOk = true) ∧ f.tableFull := by
  unfold issueEnvelope
  cases hp : encodeEnvelopePayload envelope with
  | error s =>
    have hs : s ≠ fullTable :=
      ne_fullTable_of_code (by simp [(ByteWriter.Roomy.envelope (.fresh _) envelope).finish hp])
    simpa using hs
  | ok payload =>
    dsimp only
    rw [journalRecord_fst, journalRecord_snd]
    cases hj : (f.journal a .envelope payload now.ns).1.isOk with
    | false =>
      have hs := ne_fullTable_of_journal (f.journal_status a .envelope payload now.ns)
      simpa [hj] using hs
    | true =>
      simp only [Bool.not_true, Bool.false_eq_true, if_false]
      rw [admitEnvelope_refused_iff]
      exact ⟨fun h => ⟨⟨payload, rfl, hj⟩, h⟩, And.right⟩

/-- A derivation is refused for a full table exactly when it reaches a table whose slots
reach the limit. -/
theorem derive_refused_iff : (f.deriveEnvelope a inputs now).1 = .error fullTable ↔
    f.reachesTable a inputs now ∧ f.tableFull := by
  unfold deriveEnvelope reachesTable
  cases f.running with
  | false =>
    simp only [Bool.not_false, if_true, Bool.false_eq_true, false_and, iff_false]
    exact fun h => ne_fullTable_of_code (by simp [notRunning, Status.of]) (Except.error.inj h)
  | true =>
    simp only [Bool.not_true, Bool.false_eq_true, if_false, true_and]
    unfold deriveEnvelopeInternal
    have hd := deriveCadence_notExhausted (derivationInput inputs) f.config.limits
    have he := expiryNs_notExhausted f.config inputs.grant now
    generalize deriveCadence (derivationInput inputs) f.config.limits = derived at hd ⊢
    generalize expiryNs f.config inputs.grant now = expires at he ⊢
    cases derived with
    | error s => simpa using ne_fullTable_of_code (hd s rfl)
    | ok outcome =>
      cases expires with
      | error s => simpa using ne_fullTable_of_code (he s rfl)
      | ok expiry =>
        have hpast : (∃ o e payload, (Except.ok outcome : StatusOr DerivationOutcome) = .ok o ∧
            (Except.ok expiry : StatusOr UInt64) = .ok e ∧
            encodeEnvelopePayload (f.nextEnvelope a inputs now o e) = .ok payload ∧
            (f.journal a .envelope payload now.ns).1.isOk = true) ↔
            ∃ payload, encodeEnvelopePayload (f.nextEnvelope a inputs now outcome expiry) =
              .ok payload ∧ (f.journal a .envelope payload now.ns).1.isOk = true := by
          constructor
          · rintro ⟨o, e, payload, ho, he, h⟩
            cases ho
            cases he
            exact ⟨payload, h⟩
          · rintro ⟨payload, h⟩
            exact ⟨outcome, expiry, payload, rfl, rfl, h⟩
        rw [hpast]
        exact issueEnvelope_refused_iff { f with
          envelopeIds := f.envelopeIds.next.2, provenanceIds := f.provenanceIds.next.2 } a now _

/-- A derivation refused for a full table met only envelopes in use, exactly when the table
had a free slot or all its envelopes were in use. -/
theorem full_only_if_busy_iff :
    ((f.deriveEnvelope a inputs now).1 = .error fullTable → f.AllBusy) ↔
      (f.reachesTable a inputs now → f.tableFull → f.AllBusy) := by
  rw [derive_refused_iff, and_imp]

end Fabric

namespace Scenario

/-- A coordinator with room for one envelope. -/
def oneSlot : FabricConfig := { enableDurability := false, limits := { maxEnvelopes := 1 } }

/-- The one envelope is derived and nothing is applied; a second derivation is about to look
at the table. -/
def secondDerivation : World :=
  coordinator.exec (.idle ((Fabric.construct oneSlot {}).initializeFabric answers).2)
    (setup ++ calls 0 (.deriveEnvelope ⟨1⟩) 9)

/-- The call of thread 0 is a derivation, refused for a full table, beside an envelope
eviction would take. -/
def refusedBesideIdle (w : World) : Bool :=
  match w.calls 0 with
  | some (.derive inputs now) =>
    (match (w.shared.deriveEnvelope answers inputs now).1 with
      | .error s => s == Fabric.fullTable
      | .ok _ => false) && w.shared.envelopes.entries.any w.shared.evictable
  | _ => false

end Scenario

/-- The only envelope of a table of one slot is in no use; the next derivation is refused for
a full table nevertheless. -/
theorem full_with_evictable :
    ∃ (config : FabricConfig) (disk : Disk) (a : Answers) (w : World) (n i : ℕ)
      (inputs : AuthorityInputs) (now : Instant),
      config.limits.coherent = true ∧
      ((Fabric.construct config disk).initializeFabric a).1.isOk = true ∧
      Run coordinator withinIncarnation
        (.idle ((Fabric.construct config disk).initializeFabric a).2) n w ∧
      w.calls i = some (.derive inputs now) ∧
      (w.shared.deriveEnvelope a inputs now).1 = .error Fabric.fullTable ∧
      ¬ w.shared.AllBusy := by
  obtain ⟨n, hn⟩ : ∃ n, Run coordinator withinIncarnation
      (.idle ((Fabric.construct Scenario.oneSlot {}).initializeFabric Scenario.answers).2) n
      Scenario.secondDerivation := Program.run_exec _ _
  have htest : Scenario.refusedBesideIdle Scenario.secondDerivation = true := by decide +kernel
  unfold Scenario.refusedBesideIdle at htest
  split at htest
  case h_2 => simp at htest
  case h_1 inputs now hcall =>
    rw [Bool.and_eq_true, List.any_eq_true] at htest
    obtain ⟨hrefused, e, he, hevictable⟩ := htest
    refine ⟨Scenario.oneSlot, {}, Scenario.answers, Scenario.secondDerivation, n, 0,
      inputs, now, rfl,
      by decide +kernel, hn, hcall, ?_, fun hbusy => ?_⟩
    · split at hrefused
      case h_1 s hs => rw [hs, eq_of_beq hrefused]
      case h_2 => simp at hrefused
    · simp [(Fabric.allBusy_iff _).1 hbusy e he] at hevictable

end Pacing
